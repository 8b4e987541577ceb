import HvisorUefiPacker.Relocate

/-! # What `_relocate` does to an image

A run of `_relocate` is the scan of the dynamic section, the check of what it
has found, and the loop over the relocations.  The first half of this file says
how each of them ends, or that it does not.  The second half is about images: a
`SharedObject` is what the link editor has put together for address 0, with what
each of its entries stands for, `linked` is the same file put together for
another address, and the results compare the image `_relocate` leaves with that
one.
-/

namespace HvisorUefiPacker.GnuEfi

open ByteMemory Steps StateTransition

variable {arch : Arch} {ldbase dyn : UINTN} {memory : Mem} {entries : List Elf64Dyn}

/-! ## The dynamic section -/

/-- The entries from `dyn` on, with a `DT_NULL` behind them. -/
def Dynamic (memory : Mem) : UINTN → List Elf64Dyn → Prop
  | dyn, [] => (dynAt memory dyn).dTag = dtNull
  | dyn, entry :: rest =>
    dynAt memory dyn = entry ∧ entry.dTag ≠ dtNull ∧ Dynamic memory (dyn + 16) rest

def decideDynamic (memory : Mem) : (dyn : UINTN) → (entries : List Elf64Dyn) →
    Decidable (Dynamic memory dyn entries)
  | dyn, [] => inferInstanceAs (Decidable ((dynAt memory dyn).dTag = dtNull))
  | dyn, entry :: rest =>
    have := decideDynamic memory (dyn + 16) rest
    inferInstanceAs (Decidable
      (dynAt memory dyn = entry ∧ entry.dTag ≠ dtNull ∧ Dynamic memory (dyn + 16) rest))

instance (memory : Mem) (dyn : UINTN) (entries : List Elf64Dyn) :
    Decidable (Dynamic memory dyn entries) := decideDynamic memory dyn entries

/-- The variables behind the `for` loop. -/
def tableOf (ldbase : UINTN) (entries : List Elf64Dyn) : RelaTable :=
  entries.foldl (scanEntry ldbase) {}

/-- The value of the last entry with the tag. -/
def lastValue (tag : UINTN) : List Elf64Dyn → Option UINTN
  | [] => none
  | entry :: rest => lastValue tag rest <|> if entry.dTag = tag then some entry.dUn else none

theorem scanEntry_eq (table : RelaTable) (entry : Elf64Dyn) :
    scanEntry ldbase table entry =
      { rel := if entry.dTag = dtRela then entry.dUn + ldbase else table.rel
        relsz := if entry.dTag = dtRelaSz then entry.dUn else table.relsz
        relent := if entry.dTag = dtRelaEnt then entry.dUn else table.relent } := by
  rw [scanEntry]
  split
  · rename_i isRela
    rw [isRela]
    rfl
  split
  · rename_i isSize
    rw [isSize]
    rfl
  split
  · rfl
  · rfl

/-- A scan that starts with the value `before` ends with the last one. -/
theorem lastValue_cons_map (change : UINTN → UINTN) (tag before : UINTN) (entry : Elf64Dyn)
    (rest : List Elf64Dyn) :
    ((lastValue tag (entry :: rest)).map change).getD before =
      ((lastValue tag rest).map change).getD
        (if entry.dTag = tag then change entry.dUn else before) := by
  rw [lastValue]
  cases lastValue tag rest with
  | none =>
    split
    · rfl
    · rfl
  | some value => rfl

theorem lastValue_cons (tag before : UINTN) (entry : Elf64Dyn) (rest : List Elf64Dyn) :
    (lastValue tag (entry :: rest)).getD before =
      (lastValue tag rest).getD (if entry.dTag = tag then entry.dUn else before) := by
  have mapped := lastValue_cons_map id tag before entry rest
  rwa [Option.map_id, id_eq, id_eq] at mapped

theorem foldl_scanEntry (table : RelaTable) :
    entries.foldl (scanEntry ldbase) table =
      { rel := ((lastValue dtRela entries).map (· + ldbase)).getD table.rel
        relsz := (lastValue dtRelaSz entries).getD table.relsz
        relent := (lastValue dtRelaEnt entries).getD table.relent } := by
  induction entries generalizing table with
  | nil => rfl
  | cons entry rest inductionHypothesis =>
    rw [List.foldl_cons, inductionHypothesis, lastValue_cons_map, lastValue_cons, lastValue_cons,
      scanEntry_eq]

/-- Of several entries with one tag the last one counts. -/
theorem tableOf_eq (ldbase : UINTN) (entries : List Elf64Dyn) :
    tableOf ldbase entries =
      { rel := ((lastValue dtRela entries).map (· + ldbase)).getD 0
        relsz := (lastValue dtRelaSz entries).getD 0
        relent := (lastValue dtRelaEnt entries).getD 0 } :=
  foldl_scanEntry {}

theorem scan_reaches (table : RelaTable) (dynamic : Dynamic memory dyn entries) :
    Reaches (relocateStep arch ldbase) (.scan dyn table memory)
      (checkTable (entries.foldl (scanEntry ldbase) table) memory) := by
  induction entries generalizing dyn table with
  | nil =>
    apply reaches_of_step
    rw [relocateStep]
    exact if_pos dynamic
  | cons entry rest inductionHypothesis =>
    obtain ⟨found, noEnd, others⟩ := dynamic
    apply reaches_step _ (inductionHypothesis _ others)
    rw [relocateStep, found]
    exact if_neg noEnd

/-- Without a `DT_NULL` the scan does not end. -/
theorem scan_forever (noEnd : ∀ index : Nat,
    (dynAt memory (dyn + 16 * BitVec.ofNat 64 index)).dTag ≠ dtNull) :
    Forever (relocateStep arch ldbase) (relocate dyn memory) := by
  apply forever_of_invariant fun state =>
    ∃ index table, state = .scan (dyn + 16 * BitVec.ofNat 64 index) table memory
  · rintro _ ⟨index, table, rfl⟩
    have behind : dyn + 16 * BitVec.ofNat 64 index + 16 =
        dyn + 16 * BitVec.ofNat 64 (index + 1) := by
      rw [BitVec.ofNat_add, BitVec.mul_add, BitVec.add_assoc]
      rfl
    let entry := dynAt memory (dyn + 16 * BitVec.ofNat 64 index)
    have stepped : relocateStep arch ldbase
        (.scan (dyn + 16 * BitVec.ofNat 64 index) table memory) =
          some (.scan (dyn + 16 * BitVec.ofNat 64 (index + 1))
            (scanEntry ldbase table entry) memory) := by
      rw [relocateStep, ← behind]
      exact if_neg (noEnd index)
    exact ⟨_, stepped, index + 1, _, rfl⟩
  · exact ⟨0, {}, by simp [relocate]⟩

/-! ## The status -/

theorem apply_returns {table : RelaTable} {state : Relocate}
    (reaches : Reaches (relocateStep arch ldbase) (.apply table memory) state) :
    (∃ table memory, state = .apply table memory) ∨ ∃ after, state = .returned efiSuccess after := by
  apply reaches_invariant (fun state => (∃ table memory, state = .apply table memory) ∨
    ∃ after, state = .returned efiSuccess after) reaches
  · rintro _ next (⟨table, memory, rfl⟩ | ⟨after, rfl⟩) stepped
    · rw [relocateStep] at stepped
      split at stepped
      · split at stepped
        · cases stepped
          exact .inl ⟨_, _, rfl⟩
        · cases stepped
          exact .inl ⟨_, _, rfl⟩
      · cases stepped
        exact .inr ⟨_, rfl⟩
    · cases stepped
  · exact .inl ⟨table, memory, rfl⟩

theorem relocate_scans (arch : Arch) (ldbase : UINTN) (dynamic : Dynamic memory dyn entries) :
    Reaches (relocateStep arch ldbase) (relocate dyn memory)
      (checkTable (tableOf ldbase entries) memory) :=
  scan_reaches {} dynamic

theorem eq_of_mem_eval_returned {status : EfiStatus} {after : Mem} {final : Relocate}
    (result : final ∈ eval (relocateStep arch ldbase) (.returned status after)) :
    final = .returned status after := by
  have ended : Halts (relocateStep arch ldbase) (· = .returned status after)
      (.returned status after) := halts_of_end rfl rfl
  exact ended.post_of_mem result

theorem relocate_fails (arch : Arch) (dynamic : Dynamic memory dyn entries)
    (one : ¬((tableOf ldbase entries).rel = 0 ↔ (tableOf ldbase entries).relent = 0)) :
    Halts (relocateStep arch ldbase) (· = .returned efiLoadError memory) (relocate dyn memory) := by
  have scanned := relocate_scans arch ldbase dynamic
  rw [checkTable, if_neg (by tauto), if_pos (by tauto)] at scanned
  exact halts_of_reaches scanned (halts_of_end rfl rfl)

/-- What a state of `_relocate` still has of the memory it was called with. -/
def Relocate.Unchanged (memory : Mem) : Relocate → Prop
  | .scan _ _ current => current = memory
  | .apply _ _ => True
  | .returned status current => status = efiSuccess ∨ status = efiLoadError ∧ current = memory

theorem unchanged_step {state next : Relocate} (unchanged : state.Unchanged memory)
    (stepped : relocateStep arch ldbase state = some next) : next.Unchanged memory := by
  cases state with
  | scan dyn table current =>
    cases unchanged
    rw [relocateStep] at stepped
    split at stepped
    · cases stepped
      rw [checkTable]
      split
      · exact .inl rfl
      split
      · exact .inr ⟨rfl, rfl⟩
      · trivial
    · cases stepped
      rfl
  | apply table current =>
    rw [relocateStep] at stepped
    split at stepped
    · split at stepped
      · cases stepped
        trivial
      · cases stepped
        trivial
    · cases stepped
      exact .inl rfl
  | returned status current => cases stepped

/-- There is one error, and memory is as it was. -/
theorem relocate_error {status : EfiStatus} {after : Mem}
    (returned : .returned status after ∈ eval (relocateStep arch ldbase) (relocate dyn memory))
    (failed : status ≠ efiSuccess) : status = efiLoadError ∧ after = memory := by
  have reaches := (mem_eval.mp returned).1
  have unchanged : (Relocate.returned status after).Unchanged memory :=
    reaches_invariant (Relocate.Unchanged memory) reaches
      (fun state next unchanged stepped => unchanged_step unchanged stepped) rfl
  exact unchanged.resolve_left failed

/-- `_relocate` fails where the dynamic section has one of `DT_RELA` and `DT_RELAENT` and not
    the other, and then before it has changed anything.  Everywhere else it succeeds, if it
    returns.  What counts is the last entry of each tag. -/
theorem relocate_status (arch : Arch) (ldbase : UINTN) (dynamic : Dynamic memory dyn entries) :
    let rel := ((lastValue dtRela entries).map (· + ldbase)).getD 0
    let relent := (lastValue dtRelaEnt entries).getD 0
    (¬(rel = 0 ↔ relent = 0) →
      Halts (relocateStep arch ldbase) (· = .returned efiLoadError memory)
        (relocate dyn memory)) ∧
      ((rel = 0 ↔ relent = 0) →
        ∀ final ∈ eval (relocateStep arch ldbase) (relocate dyn memory),
          ∃ after, final = .returned efiSuccess after) := by
  intro rel relent
  have table := tableOf_eq ldbase entries
  constructor
  · intro one
    apply relocate_fails arch dynamic
    rw [table]
    exact one
  · intro both final result
    have scanned := relocate_scans arch ldbase dynamic
    rw [table, checkTable] at scanned
    change Reaches _ _ (if rel = 0 ∧ relent = 0 then _ else if rel = 0 ∨ relent = 0 then _ else _)
      at scanned
    rw [reaches_eval scanned] at result
    by_cases neither : rel = 0 ∧ relent = 0
    · rw [if_pos neither] at result
      exact ⟨memory, eq_of_mem_eval_returned result⟩
    · rw [if_neg neither, if_neg (by tauto)] at result
      obtain ⟨reaches, ended⟩ := mem_eval.mp result
      rcases apply_returns reaches with ⟨table, middle, rfl⟩ | returned
      · rw [relocateStep] at ended
        split at ended
        · split at ended
          · cases ended
          · cases ended
        · cases ended
      · exact returned

/-- A dynamic section with `DT_RELA` alone. -/
def unpaired (start : UINTN) : Mem := fileMemory start ([7, 64, 0, 0].flatMap (littleEndian 8))

theorem relocate_status_unpaired :
    Halts (relocateStep .riscv64 0x1000) (· = .returned efiLoadError (unpaired 0x1000))
      (relocate 0x1000 (unpaired 0x1000)) := by
  have dynamic : Dynamic (unpaired 0x1000) 0x1000 [⟨dtRela, 64⟩] := by decide +kernel
  exact (relocate_status .riscv64 0x1000 dynamic).1 (by decide)

/-! ## The loop over the relocations -/

namespace RelaTable

/-- The table without its first entry. -/
def next (table : RelaTable) : RelaTable :=
  { table with rel := table.rel + table.relent, relsz := table.relsz - table.relent }

/-- The rounds of the `while` loop. -/
def count (table : RelaTable) : Nat :=
  if 0 < table.relsz.toInt then
    (table.relsz.toNat + table.relent.toNat - 1) / table.relent.toNat
  else 0

theorem toNat_of_positive {value : UINTN} (positive : 0 < value.toInt) :
    value.toInt = value.toNat ∧ 0 < value.toNat ∧ value.toNat < 2 ^ 63 := by
  have bound := value.isLt
  rw [BitVec.toInt_eq_toNat_cond] at positive ⊢
  split at positive
  · rename_i small
    rw [if_pos small]
    omega
  · omega

theorem count_next {table : RelaTable} (entry : 0 < table.relent.toInt)
    (more : 0 < table.relsz.toInt) : table.count = table.next.count + 1 := by
  obtain ⟨-, entryPositive, entryBound⟩ := toNat_of_positive entry
  obtain ⟨-, sizePositive, sizeBound⟩ := toNat_of_positive more
  have left : (table.relsz - table.relent).toInt =
      (table.relsz.toNat : Int) - table.relent.toNat := by
    rw [BitVec.toInt_eq_toNat_cond, BitVec.toNat_sub]
    omega
  have size : table.next.relsz = table.relsz - table.relent := rfl
  have same : table.next.relent = table.relent := rfl
  rw [count, if_pos more, count, size, same, left]
  by_cases rest : table.relent.toNat < table.relsz.toNat
  · have leftNat : (table.relsz - table.relent).toNat =
        table.relsz.toNat - table.relent.toNat := by
      rw [BitVec.toNat_sub]
      omega
    rw [if_pos (by omega), leftNat, ← Nat.add_div_right _ entryPositive]
    congr 1
    omega
  · rw [if_neg (by omega), Nat.div_eq_of_lt_le]
    · omega
    · omega

theorem count_of_empty {table : RelaTable} (empty : ¬0 < table.relsz.toInt) : table.count = 0 :=
  if_neg empty

end RelaTable

/-- The first `count` entries. -/
def readTable (memory : Mem) : Nat → RelaTable → List Elf64Rela
  | 0, _ => []
  | count + 1, table => relaAt memory table.rel :: readTable memory count table.next

/-- Where they are. -/
def tableCells : Nat → RelaTable → Set UINTN
  | 0, _ => ∅
  | count + 1, table => block table.rel 24 ∪ tableCells count table.next

def applyAll (arch : Arch) (ldbase : UINTN) (memory : Mem) (relas : List Elf64Rela) : Option Mem :=
  relas.foldlM (applyRela arch ldbase) memory

def relativeType : Arch → UINTN
  | .aarch64 => rAarch64Relative
  | .loongarch64 => rLarchRelative
  | .riscv64 => rRiscvRelative

/-- The relocation is one that `_relocate` applies. -/
def Relative (arch : Arch) (rela : Elf64Rela) : Prop := elf64RType rela = relativeType arch

instance (arch : Arch) : DecidablePred (Relative arch) := fun rela =>
  inferInstanceAs (Decidable (elf64RType rela = relativeType arch))

theorem wide64 : 8 ≤ 2 ^ 64 := by decide

theorem relaAt_congr {first second : Mem} {address : UINTN}
    (agree : Set.EqOn first second (block address 24)) :
    relaAt first address = relaAt second address := by
  have inside := inside_block address 24
  have low : Inside (block address 24) address 8 := fun index bound => inside index (by omega)
  have middle : Inside (block address 24) (address + BitVec.ofNat 64 8) 8 :=
    inside.field (by omega)
  have high : Inside (block address 24) (address + BitVec.ofNat 64 16) 8 :=
    inside.field (by omega)
  have info : word64 first (address + 8) = word64 second (address + 8) := word64_congr agree middle
  have addend : word64 first (address + 16) = word64 second (address + 16) :=
    word64_congr agree high
  rw [relaAt, relaAt, word64_congr agree low, info, addend]

theorem readTable_congr {first second : Mem} {count : Nat} {table : RelaTable}
    (agree : Set.EqOn first second (tableCells count table)) :
    readTable first count table = readTable second count table := by
  induction count generalizing table with
  | zero => rfl
  | succ count inductionHypothesis =>
    obtain ⟨head, rest⟩ := Set.eqOn_union.mp agree
    rw [readTable, readTable, relaAt_congr head, inductionHypothesis rest]

/-- The word that a relocation leaves. -/
def relocated (arch : Arch) (ldbase : UINTN) (memory : Mem) (rela : Elf64Rela) : UINTN :=
  match arch with
  | .aarch64 => ldbase + rela.rAddend
  | .loongarch64 => word64 memory (ldbase + rela.rOffset) + ldbase
  | .riscv64 => ldbase + rela.rAddend

theorem applyRela_of_relative {rela : Elf64Rela} (relative : Relative arch rela) (ldbase : UINTN)
    (memory : Mem) :
    applyRela arch ldbase memory rela =
      some (setWord64 memory (ldbase + rela.rOffset) (relocated arch ldbase memory rela)) := by
  cases arch with
  | aarch64 => exact if_pos relative
  | loongarch64 => exact if_pos relative
  | riscv64 => exact if_pos relative

theorem applyRela_of_other {rela : Elf64Rela} (other : ¬Relative arch rela) (ldbase : UINTN)
    (memory : Mem) :
    applyRela arch ldbase memory rela = if arch = .riscv64 then none else some memory := by
  cases arch with
  | aarch64 => exact if_neg other
  | loongarch64 => exact if_neg other
  | riscv64 => exact if_neg other

/-- No relocation is of a word in `cells`. -/
def Spares (arch : Arch) (ldbase : UINTN) (relas : List Elf64Rela) (cells : Set UINTN) : Prop :=
  ∀ rela ∈ relas, Relative arch rela → Disjoint (block (ldbase + rela.rOffset) 8) cells

/-- A relocation changes the word it is of, if it changes any. -/
theorem applyRela_spares {rela : Elf64Rela} {after : Mem} {cells : Set UINTN}
    (applied : applyRela arch ldbase memory rela = some after)
    (spared : Relative arch rela → Disjoint (block (ldbase + rela.rOffset) 8) cells) :
    Set.EqOn after memory cells := by
  intro cell inside
  by_cases relative : Relative arch rela
  · rw [applyRela_of_relative relative] at applied
    cases applied
    exact setWord64_outside wide64 fun touched =>
      Set.disjoint_left.mp (spared relative) touched inside
  · rw [applyRela_of_other relative] at applied
    split at applied
    · cases applied
    · cases applied
      rfl

/-- What a run of `_relocate` comes to: the memory it returns with `EFI_SUCCESS`, or `none`
    where it does not return. -/
def RunsTo (arch : Arch) (ldbase : UINTN) (state : Relocate) : Option Mem → Prop
  | some after => Halts (relocateStep arch ldbase) (· = .returned efiSuccess after) state
  | none => Forever (relocateStep arch ldbase) state

theorem RunsTo.of_reaches {state middle : Relocate} {result : Option Mem}
    (reaches : Reaches (relocateStep arch ldbase) state middle)
    (runs : RunsTo arch ldbase middle result) : RunsTo arch ldbase state result := by
  cases result with
  | some after => exact halts_of_reaches reaches runs
  | none => exact forever_of_reaches reaches runs

theorem slt_iff_positive (value : UINTN) : (0 : UINTN).slt value = true ↔ 0 < value.toInt :=
  BitVec.slt_iff_toInt_lt

/-- The loop applies the entries in their order, for as long as none of them changes the
    table.  Where one of them cannot be applied, it does not end. -/
theorem apply_runs {cells : Set UINTN} {table : RelaTable} (entry : 0 < table.relent.toInt)
    (inside : tableCells table.count table ⊆ cells)
    (spared : Spares arch ldbase (readTable memory table.count table) cells) :
    RunsTo arch ldbase (.apply table memory)
      (applyAll arch ldbase memory (readTable memory table.count table)) := by
  induction rounds : table.count generalizing table memory with
  | zero =>
    have empty : ¬(0 : UINTN).slt table.relsz := by
      rw [slt_iff_positive]
      intro more
      have counted := RelaTable.count_next entry more
      omega
    have stepped : relocateStep arch ldbase (.apply table memory) =
        some (.returned efiSuccess memory) := by
      rw [relocateStep, if_neg empty]
    exact .of_reaches (reaches_of_step stepped) (halts_of_end rfl rfl)
  | succ rest inductionHypothesis =>
    have more : 0 < table.relsz.toInt := by
      by_contra empty
      rw [RelaTable.count_of_empty empty] at rounds
      cases rounds
    have counted := RelaTable.count_next entry more
    rw [counted, readTable] at spared
    rw [counted] at inside
    have others : table.next.count = rest := by omega
    rw [others] at inside spared
    obtain ⟨-, insideRest⟩ := Set.union_subset_iff.mp inside
    rw [readTable, applyAll, List.foldlM_cons]
    cases applied : applyRela arch ldbase memory (relaAt memory table.rel) with
    | none =>
      apply forever_of_loop
      rw [relocateStep, if_pos ((slt_iff_positive _).mpr more), applied]
    | some middle =>
      have kept := applyRela_spares applied (spared _ List.mem_cons_self)
      have sameTable : readTable middle rest table.next = readTable memory rest table.next :=
        readTable_congr (kept.mono insideRest)
      have stepped : relocateStep arch ldbase (.apply table memory) =
          some (.apply table.next middle) := by
        rw [relocateStep, if_pos ((slt_iff_positive _).mpr more), applied]
        rfl
      have runs := @inductionHypothesis middle table.next entry (others ▸ insideRest)
        (others ▸ sameTable ▸ fun rela member => spared rela (List.mem_cons_of_mem _ member))
        others
      rw [sameTable] at runs
      exact .of_reaches (reaches_of_step stepped) runs

/-! ### What the entries do -/

def relocations (arch : Arch) (relas : List Elf64Rela) : List Elf64Rela :=
  relas.filter fun rela => Relative arch rela

theorem mem_relocations {relas : List Elf64Rela} {rela : Elf64Rela} :
    rela ∈ relocations arch relas ↔ rela ∈ relas ∧ Relative arch rela := by
  simp [relocations]

/-- Where the relocated words of an image at `base` are. -/
def targets (base : UINTN) (relas : List Elf64Rela) : List UINTN :=
  relas.map fun rela => base + rela.rOffset

/-- The words that relative entries stand for. -/
def patches (base : UINTN) (relas : List Elf64Rela) : List (Patch 64) :=
  relas.map fun rela => ⟨rela.rOffset, base + rela.rAddend⟩

/-- `R_AARCH64_NONE`, `R_LARCH_NONE` and `R_RISCV_NONE` -/
def rNone : UINTN := 0

/-- The word that an entry stands for in an image at each address, if it stands for one.  What
    an entry means that is neither relative nor `rNone` is for `other` to say. -/
def asked (arch : Arch) (other : Elf64Rela → Option (UINTN → UINTN)) (rela : Elf64Rela) :
    Option (UINTN → UINTN) :=
  if Relative arch rela then some fun base => base + rela.rAddend
  else if elf64RType rela = rNone then none
  else other rela

/-- All the words that the entries stand for. -/
def askedPatches (arch : Arch) (other : Elf64Rela → Option (UINTN → UINTN)) (base : UINTN)
    (relas : List Elf64Rela) : List (Patch 64) :=
  relas.filterMap fun rela => (asked arch other rela).map fun word => ⟨rela.rOffset, word base⟩

def loadedPatches (base : UINTN) (relas : List Elf64Rela) : List (Patch 64) :=
  (patches base relas).map fun patch => ⟨base + patch.address, patch.value⟩

theorem relocations_cons_of_relative {rela : Elf64Rela} (rest : List Elf64Rela)
    (relative : Relative arch rela) :
    relocations arch (rela :: rest) = rela :: relocations arch rest :=
  List.filter_cons_of_pos (decide_eq_true relative)

theorem relocations_cons_of_other {rela : Elf64Rela} (rest : List Elf64Rela)
    (other : ¬Relative arch rela) : relocations arch (rela :: rest) = relocations arch rest :=
  List.filter_cons_of_neg (by simpa using other)

section Asked

variable {other : Elf64Rela → Option (UINTN → UINTN)} {rela : Elf64Rela}

theorem asked_of_relative (relative : Relative arch rela) :
    asked arch other rela = some fun base => base + rela.rAddend := if_pos relative

theorem askedPatches_cons_of_asked {word : UINTN → UINTN} (base : UINTN) (rest : List Elf64Rela)
    (isAsked : asked arch other rela = some word) :
    askedPatches arch other base (rela :: rest) =
      ⟨rela.rOffset, word base⟩ :: askedPatches arch other base rest := by
  rw [askedPatches, List.filterMap_cons_some (b := ⟨rela.rOffset, word base⟩)]
  · rfl
  · rw [isAsked, Option.map_some]

theorem askedPatches_cons_of_none (base : UINTN) (rest : List Elf64Rela)
    (nothing : asked arch other rela = none) :
    askedPatches arch other base (rela :: rest) = askedPatches arch other base rest := by
  rw [askedPatches, List.filterMap_cons_none]
  · rfl
  · rw [nothing, Option.map_none]

/-- Where only the relative entries stand for words, theirs are all there are. -/
theorem askedPatches_of_only {relas : List Elf64Rela} (base : UINTN)
    (only : ∀ rela ∈ relas, ¬Relative arch rela → asked arch other rela = none) :
    askedPatches arch other base relas = patches base (relocations arch relas) := by
  induction relas with
  | nil => rfl
  | cons rela rest inductionHypothesis =>
    have others := inductionHypothesis fun rela member => only rela (List.mem_cons_of_mem _ member)
    by_cases relative : Relative arch rela
    · rw [askedPatches_cons_of_asked base rest (asked_of_relative relative), others,
        relocations_cons_of_relative rest relative]
      rfl
    · rw [askedPatches_cons_of_none base rest (only rela List.mem_cons_self relative), others,
        relocations_cons_of_other rest relative]

/-- The entries do not stand for words that overlap. -/
def WordsApart (arch : Arch) (other : Elf64Rela → Option (UINTN → UINTN))
    (one another : Elf64Rela) : Prop :=
  (asked arch other one).isSome → (asked arch other another).isSome →
    Disjoint (block one.rOffset 8) (block another.rOffset 8)

instance : Std.Symm (WordsApart arch other) :=
  ⟨fun _ _ disjoint first second => (disjoint second first).symm⟩

/-- The words of the other entries need not be written, where they are in memory already. -/
theorem patchAll_asked_of_inPlace {relas : List Elf64Rela} {base : UINTN}
    (apart : relas.Pairwise (WordsApart arch other))
    (inPlace : ∀ rela ∈ relas, ¬Relative arch rela → ∀ word, asked arch other rela = some word →
      word64 memory rela.rOffset = word base) :
    patchAll memory (askedPatches arch other base relas) =
      patchAll memory (patches base (relocations arch relas)) := by
  induction relas generalizing memory with
  | nil => rfl
  | cons rela rest inductionHypothesis =>
    obtain ⟨fromRest, apartRest⟩ := List.pairwise_cons.mp apart
    have restInPlace : ∀ later ∈ rest, ¬Relative arch later → ∀ word,
        asked arch other later = some word → word64 memory later.rOffset = word base :=
      fun later member => inPlace later (List.mem_cons_of_mem _ member)
    by_cases relative : Relative arch rela
    · have isAsked := @asked_of_relative arch other rela relative
      rw [askedPatches_cons_of_asked base rest isAsked, relocations_cons_of_relative rest relative,
        patchAll_cons]
      apply inductionHypothesis apartRest
      intro later member notRelative word laterAsked
      have clear := fromRest later member (by rw [isAsked]; rfl) (by rw [laterAsked]; rfl)
      rw [word64_setWord64_of_apart wide64 clear]
      exact restInPlace later member notRelative word laterAsked
    · rw [relocations_cons_of_other rest relative]
      cases isAsked : asked arch other rela with
      | none =>
        rw [askedPatches_cons_of_none base rest isAsked]
        exact inductionHypothesis apartRest restInPlace
      | some word =>
        have here := inPlace rela List.mem_cons_self relative word isAsked
        rw [askedPatches_cons_of_asked base rest isAsked, patchAll_cons, ← here,
          setWord64_word64 wide64]
        exact inductionHypothesis apartRest restInPlace

end Asked

theorem applyAll_cons_of_relative {rela : Elf64Rela} (relative : Relative arch rela)
    (ldbase : UINTN) (memory : Mem) (rest : List Elf64Rela) :
    applyAll arch ldbase memory (rela :: rest) =
      applyAll arch ldbase
        (setWord64 memory (ldbase + rela.rOffset) (relocated arch ldbase memory rela)) rest := by
  rw [applyAll, List.foldlM_cons, applyRela_of_relative relative]
  rfl

theorem applyAll_cons_of_other {rela : Elf64Rela} (other : ¬Relative arch rela)
    (ldbase : UINTN) (memory : Mem) (rest : List Elf64Rela) :
    applyAll arch ldbase memory (rela :: rest) =
      if arch = .riscv64 then none else applyAll arch ldbase memory rest := by
  rw [applyAll, List.foldlM_cons, applyRela_of_other other]
  split
  · rfl
  · rfl

theorem applyAll_aarch64 (ldbase : UINTN) (memory : Mem) (relas : List Elf64Rela) :
    applyAll .aarch64 ldbase memory relas =
      some (patchAll memory (loadedPatches ldbase (relocations .aarch64 relas))) := by
  induction relas generalizing memory with
  | nil => rfl
  | cons rela rest inductionHypothesis =>
    by_cases relative : Relative .aarch64 rela
    · rw [applyAll_cons_of_relative relative, relocations_cons_of_relative rest relative]
      exact inductionHypothesis _
    · rw [applyAll_cons_of_other relative, relocations_cons_of_other rest relative]
      exact inductionHypothesis _

/-- One entry of another type is enough to stop a RISC-V image. -/
theorem applyAll_riscv64 (ldbase : UINTN) (memory : Mem) (relas : List Elf64Rela) :
    applyAll .riscv64 ldbase memory relas =
      if ∀ rela ∈ relas, Relative .riscv64 rela then
        some (patchAll memory (loadedPatches ldbase (relocations .riscv64 relas)))
      else none := by
  induction relas generalizing memory with
  | nil => rfl
  | cons rela rest inductionHypothesis =>
    by_cases relative : Relative .riscv64 rela
    · rw [applyAll_cons_of_relative relative, relocations_cons_of_relative rest relative,
        inductionHypothesis]
      simp only [List.forall_mem_cons, relative, true_and]
      rfl
    · rw [applyAll_cons_of_other relative, if_pos rfl,
        if_neg fun all => relative (all rela List.mem_cons_self)]

theorem applyAll_loongarch64 (ldbase : UINTN) (memory : Mem) (relas : List Elf64Rela) :
    applyAll .loongarch64 ldbase memory relas =
      some (changeWords (· + ldbase) memory
        (targets ldbase (relocations .loongarch64 relas))) := by
  induction relas generalizing memory with
  | nil => rfl
  | cons rela rest inductionHypothesis =>
    by_cases relative : Relative .loongarch64 rela
    · rw [applyAll_cons_of_relative relative, relocations_cons_of_relative rest relative]
      exact inductionHypothesis _
    · rw [applyAll_cons_of_other relative, relocations_cons_of_other rest relative]
      exact inductionHypothesis _

/-! ## Images -/

/-- Where the dynamic section is, with its `DT_NULL`. -/
def dynamicCells (dyn : UINTN) : List Elf64Dyn → Set UINTN
  | [] => block dyn 16
  | _ :: rest => block dyn 16 ∪ dynamicCells (dyn + 16) rest

/-- An image as the link editor has written it, for address 0, with what `_relocate` needs of
    it: a dynamic section that leads to the relocations, which lie in the image, as the words
    do that they stand for, and of which none changes another one.  `other` is what the entries
    of other types stand for. -/
structure SharedObject (arch : Arch) where
  size : Nat
  bytes : Mem
  dyn : UINTN
  entries : List Elf64Dyn
  table : RelaTable
  other : Elf64Rela → Option (UINTN → UINTN)
  dynamic : Dynamic bytes dyn entries
  dynamicInside : dynamicCells dyn entries ⊆ { offset | offset.toNat < size }
  rela : lastValue dtRela entries = some table.rel
  relaSize : lastValue dtRelaSz entries = some table.relsz
  relaEntry : lastValue dtRelaEnt entries = some table.relent
  entrySize : 0 < table.relent.toInt
  tableInside : tableCells table.count table ⊆ { offset | offset.toNat < size }
  spared : Spares arch 0 (readTable bytes table.count table) (tableCells table.count table)
  wordsInside : ∀ rela ∈ readTable bytes table.count table, (asked arch other rela).isSome →
    block rela.rOffset 8 ⊆ { offset | offset.toNat < size }

namespace SharedObject

variable (image : SharedObject arch)

def cells : Set UINTN := { offset | offset.toNat < image.size }

def relas : List Elf64Rela := readTable image.bytes image.table.count image.table

/-- The entries that `_relocate` applies. -/
def relocations : List Elf64Rela := GnuEfi.relocations arch image.relas

/-- No two relocations are of one word. -/
def Apart : Prop :=
  (targets 0 image.relocations).Pairwise fun one other => Disjoint (block one 8) (block other 8)

/-- No two entries of any type are of one word. -/
def AskedApart : Prop := image.relas.Pairwise (WordsApart arch image.other)

/-- What an entry stands for in the image. -/
def asks (rela : Elf64Rela) : Option (UINTN → UINTN) := asked arch image.other rela

/-- The entries that `_relocate` does not apply stand for nothing. -/
def OnlyRelative : Prop := ∀ rela ∈ image.relas, ¬Relative arch rela → image.asks rela = none

/-- The entries that `_relocate` does not apply stand for words that the file has anyway. -/
def OthersInPlace (base : UINTN) : Prop :=
  ∀ rela ∈ image.relas, ¬Relative arch rela → ∀ word, image.asks rela = some word →
    word64 image.bytes rela.rOffset = word base

/-- The image as the link editor would have written it for `base`: every entry has the word
    that it stands for, whatever its type. -/
def linked (base : UINTN) : Mem :=
  patchAll image.bytes (askedPatches arch image.other base image.relas)

/-- The firmware has put the image at `base`, where the table is not at the null pointer. -/
structure Loaded (base : UINTN) (memory : Mem) : Prop where
  same : Set.EqOn (window base memory) image.bytes image.cells
  table : image.table.rel + base ≠ 0

/-- The image at `base` has become the one linked for `base`, and nothing else has changed. -/
structure Linked (base : UINTN) (before after : Mem) : Prop where
  same : Set.EqOn (window base after) (image.linked base) image.cells
  frame : ∀ address, address - base ∉ image.cells → after address = before address

variable {image}

theorem asks_of_relocation {rela : Elf64Rela} (member : rela ∈ image.relocations) :
    image.asks rela = some fun base => base + rela.rAddend :=
  asked_of_relative (mem_relocations.mp member).2

theorem relocation_inside {rela : Elf64Rela} (member : rela ∈ image.relocations) :
    block rela.rOffset 8 ⊆ image.cells := by
  apply image.wordsInside rela (mem_relocations.mp member).1
  rw [asked_of_relative (mem_relocations.mp member).2]
  rfl

theorem AskedApart.disjoint (apart : image.AskedApart) {one another : Elf64Rela}
    (member : one ∈ image.relas) (member' : another ∈ image.relas) (distinct : one ≠ another)
    (isAsked : (image.asks one).isSome) (isAsked' : (image.asks another).isSome) :
    Disjoint (block one.rOffset 8) (block another.rOffset 8) :=
  List.Pairwise.forall apart member member' distinct isAsked isAsked'

theorem AskedApart.apart (apart : image.AskedApart) : image.Apart := by
  rw [Apart, targets, List.pairwise_map, relocations, GnuEfi.relocations, List.pairwise_filter]
  apply List.Pairwise.imp _ apart
  intro one another disjoint relative relative'
  simp only [zero_add]
  apply disjoint
  · rw [asked_of_relative (of_decide_eq_true relative)]
    rfl
  · rw [asked_of_relative (of_decide_eq_true relative')]
    rfl

theorem AskedApart.patches (apart : image.AskedApart) (base : UINTN) :
    ByteMemory.Apart (askedPatches arch image.other base image.relas) := by
  rw [ByteMemory.Apart, askedPatches, List.pairwise_filterMap]
  apply List.Pairwise.imp _ apart
  intro one another disjoint patch isPatch patch' isPatch'
  obtain ⟨word, isAsked, rfl⟩ := Option.map_eq_some_iff.mp isPatch
  obtain ⟨word', isAsked', rfl⟩ := Option.map_eq_some_iff.mp isPatch'
  exact disjoint (by rw [isAsked]; rfl) (by rw [isAsked']; rfl)

/-- In the linked image an entry has the word that it stands for. -/
theorem word64_linked (apart : image.AskedApart) {rela : Elf64Rela} (member : rela ∈ image.relas)
    {word : UINTN → UINTN} (isAsked : image.asks rela = some word) (base : UINTN) :
    word64 (image.linked base) rela.rOffset = word base := by
  have patch : (⟨rela.rOffset, word base⟩ : Patch 64) ∈
      askedPatches arch image.other base image.relas := by
    apply List.mem_filterMap.mpr
    refine ⟨rela, member, ?_⟩
    rw [show asked arch image.other rela = some word from isAsked, Option.map_some]
  have found := @word64_patchAll 64 image.bytes _ wide64 (apart.patches base) _ patch
  exact found

theorem OnlyRelative.linked (only : image.OnlyRelative) (base : UINTN) :
    image.linked base = patchAll image.bytes (patches base image.relocations) := by
  rw [SharedObject.linked, askedPatches_of_only base only]
  rfl

theorem OthersInPlace.linked {base : UINTN} (inPlace : image.OthersInPlace base)
    (apart : image.AskedApart) :
    image.linked base = patchAll image.bytes (patches base image.relocations) := by
  rw [SharedObject.linked, patchAll_asked_of_inPlace apart inPlace]
  rfl

end SharedObject

section Windows

theorem mem_block_add {base offset cell : UINTN} {length : Nat} :
    cell ∈ block (base + offset) length ↔ cell - base ∈ block offset length := by
  rw [mem_block, mem_block, ← sub_sub]

theorem dynAt_window (base address : UINTN) (memory : Mem) :
    dynAt (window base memory) address = dynAt memory (base + address) := by
  rw [dynAt, dynAt, word64_window, word64_window, BitVec.add_assoc]

theorem relaAt_window (base address : UINTN) (memory : Mem) :
    relaAt (window base memory) address = relaAt memory (base + address) := by
  rw [relaAt, relaAt, word64_window, word64_window, word64_window, BitVec.add_assoc,
    BitVec.add_assoc]

theorem dynamic_window {base : UINTN} (dynamic : Dynamic (window base memory) dyn entries) :
    Dynamic memory (base + dyn) entries := by
  induction entries generalizing dyn with
  | nil =>
    rw [Dynamic, dynAt_window] at dynamic
    exact dynamic
  | cons entry rest inductionHypothesis =>
    obtain ⟨found, noEnd, others⟩ := dynamic
    rw [dynAt_window] at found
    refine ⟨found, noEnd, ?_⟩
    rw [BitVec.add_assoc]
    exact inductionHypothesis others

theorem dynAt_congr {first second : Mem} {address : UINTN}
    (agree : Set.EqOn first second (block address 16)) : dynAt first address = dynAt second address := by
  have inside := inside_block address 16
  have low : Inside (block address 16) address 8 := fun index bound => inside index (by omega)
  have high : Inside (block address 16) (address + BitVec.ofNat 64 8) 8 :=
    inside.field (by omega)
  have value : word64 first (address + 8) = word64 second (address + 8) := word64_congr agree high
  rw [dynAt, dynAt, word64_congr agree low, value]

theorem dynamic_congr {first second : Mem}
    (agree : Set.EqOn first second (dynamicCells dyn entries))
    (dynamic : Dynamic first dyn entries) : Dynamic second dyn entries := by
  induction entries generalizing dyn with
  | nil =>
    rw [Dynamic, ← dynAt_congr agree]
    exact dynamic
  | cons entry rest inductionHypothesis =>
    obtain ⟨head, others⟩ := Set.eqOn_union.mp agree
    obtain ⟨found, noEnd, remaining⟩ := dynamic
    exact ⟨dynAt_congr head ▸ found, noEnd, inductionHypothesis others remaining⟩

/-- The table of an image that has been put somewhere. -/
def RelaTable.shift (table : RelaTable) (base : UINTN) : RelaTable :=
  { table with rel := table.rel + base }

theorem shift_next (table : RelaTable) (base : UINTN) :
    (table.shift base).next = table.next.shift base := by
  simp only [RelaTable.next, RelaTable.shift, RelaTable.mk.injEq, and_true]
  abel

theorem readTable_shift (base : UINTN) (memory : Mem) (count : Nat) (table : RelaTable) :
    readTable memory count (table.shift base) = readTable (window base memory) count table := by
  induction count generalizing table with
  | zero => rfl
  | succ count inductionHypothesis =>
    rw [readTable, readTable, relaAt_window, shift_next, inductionHypothesis, RelaTable.shift,
      BitVec.add_comm]

theorem mem_tableCells_shift {base cell : UINTN} {count : Nat} {table : RelaTable} :
    cell ∈ tableCells count (table.shift base) ↔ cell - base ∈ tableCells count table := by
  induction count generalizing table with
  | zero => exact Iff.rfl
  | succ count inductionHypothesis =>
    rw [tableCells, tableCells, Set.mem_union, Set.mem_union, shift_next, inductionHypothesis,
      RelaTable.shift, BitVec.add_comm, mem_block_add]

theorem spares_shift {base : UINTN} {relas : List Elf64Rela} {count : Nat} {table : RelaTable}
    (spared : Spares arch 0 relas (tableCells count table)) :
    Spares arch base relas (tableCells count (table.shift base)) := by
  intro rela member relative
  rw [Set.disjoint_left]
  intro cell touched inTable
  rw [mem_block_add] at touched
  rw [mem_tableCells_shift] at inTable
  apply Set.disjoint_left.mp (spared rela member relative) _ inTable
  rwa [zero_add]

end Windows

/-! ## An image that has been loaded -/

section Loading

variable {image : SharedObject arch} {base : UINTN} {before : Mem}

theorem relas_loaded (loaded : image.Loaded base memory) :
    readTable memory image.table.count (image.table.shift base) = image.relas := by
  rw [readTable_shift, SharedObject.relas]
  exact readTable_congr (loaded.same.mono image.tableInside)

/-- `_relocate` applies the relocations of the image, and does nothing else. -/
theorem relocate_loaded (loaded : image.Loaded base memory) :
    RunsTo arch base (relocate (base + image.dyn) memory)
      (applyAll arch base memory image.relas) := by
  have same : Set.EqOn image.bytes (window base memory) image.cells := loaded.same.symm
  have dynamic : Dynamic memory (base + image.dyn) image.entries :=
    dynamic_window (dynamic_congr (same.mono image.dynamicInside) image.dynamic)
  have scanned := relocate_scans arch base dynamic
  have table : tableOf base image.entries = image.table.shift base := by
    rw [tableOf_eq, image.rela, image.relaSize, image.relaEntry]
    rfl
  have entry : image.table.relent ≠ 0 := by
    intro zero
    have positive := image.entrySize
    rw [zero] at positive
    cases positive
  have checked : checkTable (image.table.shift base) memory =
      .apply (image.table.shift base) memory := by
    rw [checkTable, if_neg fun both => loaded.table both.1,
      if_neg fun either => either.elim loaded.table entry]
  rw [table, checked] at scanned
  apply RunsTo.of_reaches scanned
  have spared : Spares arch base (readTable memory image.table.count (image.table.shift base))
      (tableCells image.table.count (image.table.shift base)) := by
    rw [relas_loaded loaded]
    exact spares_shift image.spared
  have runs := @apply_runs arch base memory (tableCells image.table.count (image.table.shift base))
    (image.table.shift base) image.entrySize (Set.Subset.refl _) spared
  have count : (image.table.shift base).count = image.table.count := rfl
  rwa [count, relas_loaded loaded] at runs

theorem window_loadedPatches (base : UINTN) (memory : Mem) (relas : List Elf64Rela) :
    window base (patchAll memory (loadedPatches base relas)) =
      patchAll (window base memory) (patches base relas) := by
  rw [loadedPatches, window_patchAll wide64]

end Loading

/-! ### What the image has become

Each of the three files comes down to a value for each relocation: `moves` says that these are
in memory, and the rest as it was. -/

section Moves

variable {image : SharedObject arch} {base : UINTN} {after : Mem} {value : Elf64Rela → UINTN}

theorem frame_of_moves
    (moves : window base after =
      patchAll (window base memory) (image.relocations.map fun rela => ⟨rela.rOffset, value rela⟩))
    {address : UINTN} (outside : address - base ∉ image.cells) : after address = memory address := by
  have cell := congrFun moves (address - base)
  rw [patchAll_outside wide64] at cell
  · rwa [window, window, add_sub_cancel] at cell
  · intro patch member touched
    obtain ⟨rela, isRelocation, rfl⟩ := List.mem_map.mp member
    exact outside (SharedObject.relocation_inside isRelocation touched)

/-- The image has been linked where its relative entries are all that there is to do. -/
theorem linked_of_moves (loaded : image.Loaded base memory)
    (moves : window base after = patchAll (window base memory) (patches base image.relocations))
    (whole : image.linked base = patchAll image.bytes (patches base image.relocations)) :
    image.Linked base memory after where
  same := by
    intro offset inside
    rw [moves, whole]
    exact patchAll_congr wide64 (loaded.same inside)
  frame := fun _ outside => frame_of_moves moves outside

theorem apart_words (apart : image.Apart) (value : Elf64Rela → UINTN) :
    ByteMemory.Apart (image.relocations.map fun rela => ⟨rela.rOffset, value rela⟩) := by
  rw [SharedObject.Apart, targets, List.pairwise_map] at apart
  rw [ByteMemory.Apart, List.pairwise_map]
  simpa [Patch.cells] using apart

theorem word64_of_moves (apart : image.Apart)
    (moves : window base after =
      patchAll (window base memory) (image.relocations.map fun rela => ⟨rela.rOffset, value rela⟩))
    {rela : Elf64Rela} (member : rela ∈ image.relocations) :
    word64 (window base after) rela.rOffset = value rela := by
  have moved : (⟨rela.rOffset, value rela⟩ : Patch 64) ∈
      image.relocations.map fun rela => ⟨rela.rOffset, value rela⟩ := List.mem_map_of_mem member
  rw [moves]
  have found := @word64_patchAll 64 (window base memory) _ wide64 (apart_words apart value) _ moved
  exact found

/-- An entry of another type has the word that the file has. -/
theorem word64_of_others (loaded : image.Loaded base memory) (apart : image.AskedApart)
    (moves : window base after =
      patchAll (window base memory) (image.relocations.map fun rela => ⟨rela.rOffset, value rela⟩))
    {rela : Elf64Rela} (member : rela ∈ image.relas) (other : ¬Relative arch rela)
    (isAsked : (image.asks rela).isSome) :
    word64 (window base after) rela.rOffset = word64 image.bytes rela.rOffset := by
  have inside : block rela.rOffset 8 ⊆ image.cells := image.wordsInside rela member isAsked
  have clear : ∀ patch ∈ image.relocations.map (fun rela => (⟨rela.rOffset, value rela⟩ : Patch 64)),
      Disjoint patch.cells (block rela.rOffset 8) := by
    intro patch isPatch
    obtain ⟨relative, isRelocation, rfl⟩ := List.mem_map.mp isPatch
    obtain ⟨found, applies⟩ := mem_relocations.mp isRelocation
    apply apart.disjoint found member (fun same => other (same ▸ applies)) _ isAsked
    rw [SharedObject.asks_of_relocation isRelocation]
    rfl
  rw [moves, word64_patchAll_of_apart wide64 clear]
  exact word64_congr (loaded.same.mono inside) (inside_block rela.rOffset 8)

/-- The image has been linked exactly where the relative entries have got what they stand for,
    and the others had it. -/
theorem linked_iff (loaded : image.Loaded base memory) (apart : image.AskedApart)
    (moves : window base after =
      patchAll (window base memory) (image.relocations.map fun rela => ⟨rela.rOffset, value rela⟩)) :
    image.Linked base memory after ↔
      (∀ rela ∈ image.relocations, value rela = base + rela.rAddend) ∧
        image.OthersInPlace base := by
  constructor
  · intro linked
    have words : ∀ rela ∈ image.relas, ∀ word, image.asks rela = some word →
        word64 (window base after) rela.rOffset = word base := by
      intro rela member word isAsked
      have inside : block rela.rOffset 8 ⊆ image.cells := by
        apply image.wordsInside rela member
        rw [show asked arch image.other rela = some word from isAsked]
        rfl
      rw [word64_congr (linked.same.mono inside) (inside_block rela.rOffset 8)]
      exact SharedObject.word64_linked apart member isAsked base
    constructor
    · intro rela member
      rw [← word64_of_moves apart.apart moves member]
      exact words rela (mem_relocations.mp member).1 _ (SharedObject.asks_of_relocation member)
    · intro rela member other word isAsked
      rw [← word64_of_others loaded apart moves member other (by rw [isAsked]; rfl)]
      exact words rela member word isAsked
  · rintro ⟨values, inPlace⟩
    have same : image.relocations.map (fun rela => (⟨rela.rOffset, value rela⟩ : Patch 64)) =
        patches base image.relocations :=
      List.map_congr_left fun rela member => by rw [values rela member]
    rw [same] at moves
    exact linked_of_moves loaded moves (inPlace.linked apart)

end Moves

/-! ### The smallest images with two relocations -/

/-- A dynamic section of three entries, two relocations, and the words that they are of. -/
def pairWords (first second : UINTN) : List Nat :=
  [7, 64, 8, 48, 9, 24, 0, 0, 112, first.toNat, 5, 120, second.toNat, 9, 5, 9]

def pairBytes (first second : UINTN) : Mem :=
  fileMemory 0 ((pairWords first second).flatMap (littleEndian 8))

def pairTable : RelaTable := ⟨64, 48, 24⟩

/-- `R_AARCH64_ABS64`, `R_LARCH_64`, and the type that stands for no relocation on RISC-V. -/
def otherType : Arch → UINTN
  | .aarch64 => 257
  | .loongarch64 => 2
  | .riscv64 => 0

/-- The type of the second entry. -/
def secondType (arch : Arch) (relative : Bool) : UINTN :=
  if relative then relativeType arch else otherType arch

def pairRelas (arch : Arch) (relative : Bool) : List Elf64Rela :=
  [⟨112, relativeType arch, 5⟩, ⟨120, secondType arch relative, 9⟩]

theorem readTable_pair (arch : Arch) (relative : Bool) :
    readTable (pairBytes (relativeType arch) (secondType arch relative)) pairTable.count pairTable =
      pairRelas arch relative := by
  cases arch with
  | aarch64 => cases relative <;> decide +kernel
  | loongarch64 => cases relative <;> decide +kernel
  | riscv64 => cases relative <;> decide +kernel

theorem block_below {offset : UINTN} {length size : Nat} (fits : offset.toNat + length ≤ size) :
    block offset length ⊆ { cell | cell.toNat < size } := by
  intro cell inside
  rw [mem_block, BitVec.toNat_sub] at inside
  have bound := cell.isLt
  have low := offset.isLt
  show cell.toNat < size
  omega

theorem mem_pairRelas {arch : Arch} {relative : Bool} {rela : Elf64Rela}
    (member : rela ∈ pairRelas arch relative) : rela.rOffset = 112 ∨ rela.rOffset = 120 := by
  rcases List.mem_pair.mp member with rfl | rfl
  · exact .inl rfl
  · exact .inr rfl

/-- An entry of another type stands for the address of its addend. -/
def twoRelocations (arch : Arch) (relative : Bool) : SharedObject arch where
  size := 256
  bytes := pairBytes (relativeType arch) (secondType arch relative)
  dyn := 0
  entries := [⟨dtRela, 64⟩, ⟨dtRelaSz, 48⟩, ⟨dtRelaEnt, 24⟩]
  table := pairTable
  other rela := some fun base => base + rela.rAddend
  dynamic := by
    cases arch with
    | aarch64 => cases relative <;> decide +kernel
    | loongarch64 => cases relative <;> decide +kernel
    | riscv64 => cases relative <;> decide +kernel
  dynamicInside := by
    simp only [dynamicCells, Set.union_subset_iff]
    exact ⟨block_below (by decide), block_below (by decide), block_below (by decide),
      block_below (by decide)⟩
  rela := rfl
  relaSize := rfl
  relaEntry := rfl
  entrySize := by decide
  tableInside := Set.union_subset (block_below (by decide))
    (Set.union_subset (block_below (by decide)) (Set.empty_subset _))
  spared := by
    rw [readTable_pair]
    have apart : ∀ offset : UINTN, offset = 112 ∨ offset = 120 →
        Disjoint (block (0 + offset) 8) (block 64 24 ∪ (block (64 + 24) 24 ∪ ∅)) := by
      rintro offset (rfl | rfl)
      · simp only [Set.disjoint_union_right, Set.disjoint_empty, and_true]
        exact ⟨disjoint_block (by decide) (by decide), disjoint_block (by decide) (by decide)⟩
      · simp only [Set.disjoint_union_right, Set.disjoint_empty, and_true]
        exact ⟨disjoint_block (by decide) (by decide), disjoint_block (by decide) (by decide)⟩
    intro rela member _
    exact apart rela.rOffset (mem_pairRelas member)
  wordsInside := by
    rw [readTable_pair]
    intro rela member _
    rcases mem_pairRelas member with offset | offset
    · rw [offset]
      exact block_below (by decide)
    · rw [offset]
      exact block_below (by decide)

/-- The image at an address, and nothing else. -/
def pairAt (arch : Arch) (relative : Bool) (base : UINTN) : Mem :=
  fun address => pairBytes (relativeType arch) (secondType arch relative) (address - base)

theorem pair_loaded (arch : Arch) (relative : Bool) {base : UINTN} (notNull : 64 + base ≠ 0) :
    (twoRelocations arch relative).Loaded base (pairAt arch relative base) where
  same := by
    intro offset _
    rw [window, pairAt, add_sub_cancel_left]
    rfl
  table := notNull

theorem relas_pair (arch : Arch) (relative : Bool) :
    (twoRelocations arch relative).relas = pairRelas arch relative :=
  readTable_pair arch relative

theorem relative_pair (arch : Arch) : ∀ rela ∈ (twoRelocations arch true).relas,
    Relative arch rela := by
  rw [relas_pair]
  cases arch with
  | aarch64 => decide
  | loongarch64 => decide
  | riscv64 => decide

theorem onlyRelative_pair (arch : Arch) : (twoRelocations arch true).OnlyRelative :=
  fun rela member other => absurd (relative_pair arch rela member) other

theorem askedApart_pair (arch : Arch) (relative : Bool) :
    (twoRelocations arch relative).AskedApart := by
  rw [SharedObject.AskedApart, relas_pair, pairRelas, List.pairwise_pair]
  intro _ _
  show Disjoint (block (112 : UINTN) 8) (block 120 8)
  exact disjoint_block (by decide) (by decide)

/-! ## The results -/

/-- On AArch64 `_relocate` returns whatever the entries are, and changes the image only.  It
    passes over the entries that are not relative: where they stand for nothing, the image
    becomes the one that the link editor would have written for the address it is at;
    otherwise it does so exactly where they stand for words that the file has anyway. -/
theorem relocate_links_aarch64 {image : SharedObject .aarch64} {base : UINTN}
    (loaded : image.Loaded base memory) :
    Halts (relocateStep .aarch64 base)
      (fun final => ∃ after, final = .returned efiSuccess after ∧
        (∀ address, address - base ∉ image.cells → after address = memory address) ∧
        (image.OnlyRelative → image.Linked base memory after) ∧
        (image.AskedApart → (image.Linked base memory after ↔ image.OthersInPlace base)))
      (relocate (base + image.dyn) memory) := by
  have runs := relocate_loaded loaded
  rw [applyAll_aarch64] at runs
  have moves := window_loadedPatches base memory image.relocations
  have halts : Halts (relocateStep .aarch64 base) _ (relocate (base + image.dyn) memory) := runs
  apply halts.mono
  intro final returned
  refine ⟨_, returned, fun _ outside => frame_of_moves moves outside, fun only => ?_,
    fun apart => ?_⟩
  · exact linked_of_moves loaded moves (only.linked base)
  · rw [SharedObject.relocations] at moves
    have linked := linked_iff loaded apart moves
    rw [linked]
    exact and_iff_right fun _ _ => rfl

/-- With two relative entries the image is linked.  With `R_AARCH64_ABS64` in the second place
    it is not. -/
theorem relocate_links_aarch64_pair :
    Halts (relocateStep .aarch64 0x1000)
        (fun final => ∃ after, final = .returned efiSuccess after ∧
          (twoRelocations .aarch64 true).Linked 0x1000 (pairAt .aarch64 true 0x1000) after)
        (relocate 0x1000 (pairAt .aarch64 true 0x1000)) ∧
      Halts (relocateStep .aarch64 0x1000)
        (fun final => ∃ after, final = .returned efiSuccess after ∧
          ¬(twoRelocations .aarch64 false).Linked 0x1000 (pairAt .aarch64 false 0x1000) after)
        (relocate 0x1000 (pairAt .aarch64 false 0x1000)) := by
  constructor
  · have halts := relocate_links_aarch64 (@pair_loaded .aarch64 true 0x1000 (by decide))
    apply halts.mono
    rintro final ⟨after, returned, -, links, -⟩
    exact ⟨after, returned, links (onlyRelative_pair .aarch64)⟩
  · have halts := relocate_links_aarch64 (@pair_loaded .aarch64 false 0x1000 (by decide))
    apply halts.mono
    rintro final ⟨after, returned, -, -, links⟩
    refine ⟨after, returned, fun linked => ?_⟩
    have inPlace := (links (askedApart_pair .aarch64 false)).mp linked
    have member : (⟨120, 257, 9⟩ : Elf64Rela) ∈ (twoRelocations .aarch64 false).relas := by
      rw [relas_pair]
      decide
    have word := inPlace _ member (by decide) _ rfl
    revert word
    decide +kernel

/-- On RISC-V it does so, too, unless there is a relocation of another type, even of the type
    that stands for none: then `_relocate` does not return. -/
theorem relocate_links_riscv64 {image : SharedObject .riscv64} {base : UINTN}
    (loaded : image.Loaded base memory) :
    ((∀ rela ∈ image.relas, elf64RType rela = rRiscvRelative) →
      Halts (relocateStep .riscv64 base)
        (fun final => ∃ after, final = .returned efiSuccess after ∧
          image.Linked base memory after)
        (relocate (base + image.dyn) memory)) ∧
      ((∃ rela ∈ image.relas, elf64RType rela ≠ rRiscvRelative) →
        Forever (relocateStep .riscv64 base) (relocate (base + image.dyn) memory)) := by
  have runs := relocate_loaded loaded
  rw [applyAll_riscv64] at runs
  constructor
  · intro all
    have relative : ∀ rela ∈ image.relas, Relative .riscv64 rela := all
    have only : image.OnlyRelative := fun rela member other => absurd (relative rela member) other
    rw [if_pos relative] at runs
    have halts : Halts (relocateStep .riscv64 base) _ (relocate (base + image.dyn) memory) := runs
    apply halts.mono
    intro final returned
    exact ⟨_, returned, linked_of_moves loaded (window_loadedPatches base memory _)
      (only.linked base)⟩
  · rintro ⟨rela, member, other⟩
    rw [if_neg fun all => other (all rela member)] at runs
    exact runs

/-- The second entry decides. -/
theorem relocate_links_riscv64_pair :
    Halts (relocateStep .riscv64 0x1000)
        (fun final => ∃ after, final = .returned efiSuccess after ∧
          (twoRelocations .riscv64 true).Linked 0x1000 (pairAt .riscv64 true 0x1000) after)
        (relocate 0x1000 (pairAt .riscv64 true 0x1000)) ∧
      Forever (relocateStep .riscv64 0x1000) (relocate 0x1000 (pairAt .riscv64 false 0x1000)) := by
  constructor
  · apply (relocate_links_riscv64 (pair_loaded .riscv64 true (by decide))).1
    exact relative_pair .riscv64
  · apply (relocate_links_riscv64 (pair_loaded .riscv64 false (by decide))).2
    rw [relas_pair]
    decide

/-! ### The words that are moved -/

namespace SharedObject

variable (image : SharedObject arch)

/-- What the base is added to: the addend, or, on LoongArch, the word that is there. -/
def origin (rela : Elf64Rela) : UINTN :=
  match arch with
  | .aarch64 => rela.rAddend
  | .loongarch64 => word64 image.bytes rela.rOffset
  | .riscv64 => rela.rAddend

def moved (base : UINTN) : List (Patch 64) :=
  image.relocations.map fun rela => ⟨rela.rOffset, base + image.origin rela⟩

end SharedObject

section Moving

variable {image : SharedObject arch} {base : UINTN}

theorem word64_loaded (loaded : image.Loaded base memory) {rela : Elf64Rela}
    (member : rela ∈ image.relocations) :
    word64 memory (base + rela.rOffset) = word64 image.bytes rela.rOffset := by
  rw [← word64_window]
  exact word64_congr (loaded.same.mono (SharedObject.relocation_inside member))
    (inside_block rela.rOffset 8)

theorem apart_targets (apart : image.Apart) (base : UINTN) :
    (targets base image.relocations).Pairwise fun one other =>
      Disjoint (block one 8) (block other 8) := by
  rw [SharedObject.Apart, targets, List.pairwise_map] at apart
  rw [targets, List.pairwise_map]
  apply apart.imp
  intro one other disjoint
  rw [Set.disjoint_left] at disjoint ⊢
  intro cell inOne inOther
  rw [mem_block_add] at inOne inOther
  rw [zero_add, zero_add] at disjoint
  exact disjoint inOne inOther

/-- Wherever the image is, its words are moved, each from its origin. -/
theorem applyAll_moves (loaded : image.Loaded base memory) (apart : image.Apart) {after : Mem}
    (applied : applyAll arch base memory image.relas = some after) :
    window base after = patchAll (window base memory) (image.moved base) := by
  rw [← window_patchAll wide64]
  cases arch with
  | aarch64 =>
    rw [applyAll_aarch64] at applied
    cases applied
    rw [loadedPatches, patches, SharedObject.moved, SharedObject.relocations]
    rfl
  | loongarch64 =>
    rw [applyAll_loongarch64] at applied
    cases applied
    have words := @changeWords_eq_patchAll 64 memory wide64 (· + base) _
      (apart_targets apart base)
    rw [SharedObject.relocations] at words
    rw [words]
    congr 2
    rw [targets, SharedObject.moved, List.map_map, List.map_map]
    apply List.map_congr_left
    intro rela member
    show (⟨base + rela.rOffset, word64 memory (base + rela.rOffset) + base⟩ : Patch 64) = _
    rw [word64_loaded loaded member, BitVec.add_comm (word64 image.bytes rela.rOffset) base]
    rfl
  | riscv64 =>
    rw [applyAll_riscv64] at applied
    split at applied
    · cases applied
      rw [loadedPatches, patches, SharedObject.moved, SharedObject.relocations]
      rfl
    · cases applied

/-- A run that succeeds has applied all relocations. -/
theorem applied_of_returned (loaded : image.Loaded base memory) {after : Mem}
    (returned : .returned efiSuccess after ∈
      eval (relocateStep arch base) (relocate (base + image.dyn) memory)) :
    applyAll arch base memory image.relas = some after := by
  have runs := relocate_loaded loaded
  cases applied : applyAll arch base memory image.relas with
  | none =>
    rw [applied] at runs
    exact absurd returned (runs _)
  | some result =>
    rw [applied] at runs
    cases Halts.post_of_mem runs returned
    rfl

end Moving

/-- On LoongArch the base is added to the word that the file has, whatever the addend is.  So
    the image becomes the one linked for its address exactly where the link editor has left
    each addend in the file as well, and what the entries of other types stand for. -/
theorem relocate_links_loongarch64 {image : SharedObject .loongarch64} {base : UINTN}
    (loaded : image.Loaded base memory) (apart : image.Apart) :
    Halts (relocateStep .loongarch64 base)
      (fun final => ∃ after, final = .returned efiSuccess after ∧
        (∀ rela ∈ image.relocations, word64 (window base after) rela.rOffset =
          base + word64 image.bytes rela.rOffset) ∧
        (image.AskedApart → (image.Linked base memory after ↔
          (∀ rela ∈ image.relocations, word64 image.bytes rela.rOffset = rela.rAddend) ∧
            image.OthersInPlace base)))
      (relocate (base + image.dyn) memory) := by
  have runs := relocate_loaded loaded
  have applied := applyAll_loongarch64 base memory image.relas
  have moves := applyAll_moves loaded apart applied
  rw [SharedObject.moved] at moves
  rw [applied] at runs
  have halts : Halts (relocateStep .loongarch64 base) _ (relocate (base + image.dyn) memory) := runs
  apply halts.mono
  intro final returned
  refine ⟨_, returned, fun rela member => word64_of_moves apart moves member, fun allApart => ?_⟩
  rw [linked_iff loaded allApart moves]
  apply and_congr_left
  intro _
  exact forall₂_congr fun rela _ => add_right_inj base

theorem relocate_links_loongarch64_pair :
    Halts (relocateStep .loongarch64 0x1000)
      (fun final => ∃ after, final = .returned efiSuccess after ∧
        (twoRelocations .loongarch64 true).Linked 0x1000 (pairAt .loongarch64 true 0x1000) after)
      (relocate 0x1000 (pairAt .loongarch64 true 0x1000)) := by
  have apart := askedApart_pair .loongarch64 true
  have halts := relocate_links_loongarch64
    (@pair_loaded .loongarch64 true 0x1000 (by decide)) apart.apart
  apply halts.mono
  rintro final ⟨after, returned, -, links⟩
  refine ⟨after, returned, (links apart).mpr ⟨?_, ?_⟩⟩
  · rw [SharedObject.relocations, relas_pair]
    decide +kernel
  · exact fun rela member other => absurd (relative_pair .loongarch64 rela member) other

/-! ### Images that can be linked -/

/-- What an image must be like for `_relocate` to link it. -/
def SharedObject.Linkable : {arch : Arch} → SharedObject arch → Prop
  | .aarch64, image => image.OnlyRelative
  | .loongarch64, image =>
    image.OnlyRelative ∧ image.Apart ∧
      ∀ rela ∈ image.relocations, word64 image.bytes rela.rOffset = rela.rAddend
  | .riscv64, image => ∀ rela ∈ image.relas, Relative .riscv64 rela

theorem SharedObject.Linkable.onlyRelative {image : SharedObject arch} (linkable : image.Linkable) :
    image.OnlyRelative := by
  cases arch with
  | aarch64 => exact linkable
  | loongarch64 => exact linkable.1
  | riscv64 => exact fun rela member other => absurd (linkable rela member) other

theorem SharedObject.Linkable.returned {image : SharedObject arch} {base : UINTN}
    (linkable : image.Linkable) (loaded : image.Loaded base memory) :
    ∃ after, .returned efiSuccess after ∈
        eval (relocateStep arch base) (relocate (base + image.dyn) memory) ∧
      image.Linked base memory after := by
  have whole := linkable.onlyRelative.linked base
  have applies : ∃ after, applyAll arch base memory image.relas = some after ∧
      window base after = patchAll (window base memory) (patches base image.relocations) := by
    cases arch with
    | aarch64 => exact ⟨_, applyAll_aarch64 base memory _, window_loadedPatches base memory _⟩
    | loongarch64 =>
      obtain ⟨-, apart, addends⟩ := linkable
      have applied := applyAll_loongarch64 base memory image.relas
      have moves := applyAll_moves loaded apart applied
      have same : image.moved base = patches base image.relocations :=
        List.map_congr_left fun rela member => by
          show (⟨rela.rOffset, base + word64 image.bytes rela.rOffset⟩ : Patch 64) = _
          rw [addends rela member]
      rw [same] at moves
      exact ⟨_, applied, moves⟩
    | riscv64 =>
      have relative : ∀ rela ∈ image.relas, Relative .riscv64 rela := linkable
      have applied := applyAll_riscv64 base memory image.relas
      rw [if_pos relative] at applied
      exact ⟨_, applied, window_loadedPatches base memory _⟩
  obtain ⟨after, applied, moves⟩ := applies
  have runs := relocate_loaded loaded
  rw [applied] at runs
  obtain ⟨final, result, rfl⟩ := runs
  exact ⟨after, result, linked_of_moves loaded moves whole⟩

/-! ### Two copies -/

/-- Two copies of one image, each relocated to the address it is at, differ by the distance in
    the relocated words and in nothing else. -/
theorem relocate_rebases {image : SharedObject arch} (apart : image.Apart)
    {base other : UINTN} {memory memory' after after' : Mem}
    (loaded : image.Loaded base memory) (loaded' : image.Loaded other memory')
    (returned : .returned efiSuccess after ∈
      eval (relocateStep arch base) (relocate (base + image.dyn) memory))
    (returned' : .returned efiSuccess after' ∈
      eval (relocateStep arch other) (relocate (other + image.dyn) memory')) :
    (∀ offset ∈ image.cells, (∀ rela ∈ image.relocations, offset ∉ block rela.rOffset 8) →
      after (base + offset) = after' (other + offset)) ∧
      ∀ rela ∈ image.relocations,
        word64 after (base + rela.rOffset) - base =
          word64 after' (other + rela.rOffset) - other := by
  have moves := applyAll_moves loaded apart (applied_of_returned loaded returned)
  have moves' := applyAll_moves loaded' apart (applied_of_returned loaded' returned')
  rw [SharedObject.moved] at moves moves'
  constructor
  · intro offset inside untouched
    have kept : ∀ start memory, patchAll memory (image.moved start) offset = memory offset := by
      intro start memory
      apply patchAll_outside wide64
      intro patch member
      obtain ⟨rela, isRelocation, rfl⟩ := List.mem_map.mp member
      exact untouched rela isRelocation
    have first := congrFun moves offset
    have second := congrFun moves' offset
    rw [← SharedObject.moved, kept, loaded.same inside] at first
    rw [← SharedObject.moved, kept, loaded'.same inside] at second
    exact first.trans second.symm
  · intro rela member
    rw [← word64_window, ← word64_window, word64_of_moves apart moves member,
      word64_of_moves apart moves' member, add_sub_cancel_left, add_sub_cancel_left]

/-- The second word of two copies, and the byte in front of the first one. -/
theorem relocate_rebases_pair : ∃ after after' : Mem,
    .returned efiSuccess after ∈
        eval (relocateStep .aarch64 0x1000) (relocate 0x1000 (pairAt .aarch64 true 0x1000)) ∧
      .returned efiSuccess after' ∈
        eval (relocateStep .aarch64 0x3000) (relocate 0x3000 (pairAt .aarch64 true 0x3000)) ∧
      word64 after (0x1000 + 120) - 0x1000 = word64 after' (0x3000 + 120) - 0x3000 ∧
      after (0x1000 + 111) = after' (0x3000 + 111) := by
  have loaded := @pair_loaded .aarch64 true 0x1000 (by decide)
  have loaded' := @pair_loaded .aarch64 true 0x3000 (by decide)
  have linkable : (twoRelocations .aarch64 true).Linkable := onlyRelative_pair .aarch64
  obtain ⟨after, returned, -⟩ := linkable.returned loaded
  obtain ⟨after', returned', -⟩ := linkable.returned loaded'
  have relocations : (twoRelocations .aarch64 true).relocations = pairRelas .aarch64 true := by
    rw [SharedObject.relocations, relas_pair]
    decide
  have apart := (askedApart_pair .aarch64 true).apart
  have rebased := relocate_rebases apart loaded loaded' returned returned'
  rw [relocations] at rebased
  have outside : ∀ rela ∈ pairRelas .aarch64 true, (111 : UINTN) ∉ block rela.rOffset 8 := by
    decide
  have inside : (111 : UINTN) ∈ (twoRelocations .aarch64 true).cells := by
    show (111 : UINTN).toNat < 256
    decide
  refine ⟨after, after', ?_, ?_, ?_, ?_⟩
  · exact returned
  · exact returned'
  · exact rebased.2 ⟨120, rAarch64Relative, 9⟩ (by decide)
  · exact rebased.1 111 inside outside

end HvisorUefiPacker.GnuEfi
