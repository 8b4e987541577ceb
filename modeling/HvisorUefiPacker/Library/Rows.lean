import Mathlib.Algebra.Order.Floor.Div

/-! # Rows of a fixed width

A sequence laid out in rows: every row but the last is full, and the last holds
what remains.  `rows` says what the layout is; `written` is what a writer has
put out that goes through the elements one by one and ends each row as soon as
it is full.

* `flatten_rows`, `rows_length`, `length_of_mem_dropLast`, `getLast?_rows` are the
  layout.
* `written_succ` is one round of the writer, and `written_all` says that after the
  last round only the end of a partial row is missing.
* `fullRows` and `pending` are what a writer has handed on, and still holds, that keeps
  a row back until it is full.
-/

namespace Rows

variable {α β : Type} {width : Nat}

/-- Row `index`, which is empty behind the end. -/
def row (width : Nat) (elements : List α) (index : Nat) : List α :=
  (elements.drop (width * index)).take width

def rows (width : Nat) (elements : List α) : List (List α) :=
  (List.range (elements.length ⌈/⌉ width)).map (row width elements)

/-! ## The layout -/

theorem row_length (elements : List α) (index : Nat) :
    (row width elements index).length = min width (elements.length - width * index) := by
  simp [row]

@[simp] theorem rows_length (elements : List α) :
    (rows width elements).length = elements.length ⌈/⌉ width := by
  simp [rows]

/-- The rows so far are the elements so far. -/
theorem flatten_first_rows (elements : List α) (count : Nat) :
    ((List.range count).map (row width elements)).flatten = elements.take (width * count) := by
  induction count with
  | zero => simp
  | succ count inductionHypothesis =>
    rw [List.range_succ, List.map_append, List.flatten_append, inductionHypothesis, Nat.mul_succ,
      List.take_add]
    simp [row]

theorem flatten_rows (positive : 0 < width) (elements : List α) :
    (rows width elements).flatten = elements := by
  rw [rows, flatten_first_rows]
  exact List.take_of_length_le (le_smul_ceilDiv positive)

/-- In front of the last row there are too few elements for all of them to be full. -/
theorem width_mul_pred_lt (positive : 0 < width) {count : Nat} (nonempty : 0 < count) :
    width * (count ⌈/⌉ width - 1) < count := by
  have someRow : count ⌈/⌉ width ≠ 0 := by
    intro none
    have covered : count ≤ width * (count ⌈/⌉ width) := le_smul_ceilDiv positive
    rw [none] at covered
    omega
  by_contra short
  have fewer : count ⌈/⌉ width ≤ count ⌈/⌉ width - 1 :=
    (ceilDiv_le_iff_le_mul positive).mpr (Nat.le_of_not_lt short)
  omega

/-- A row that another follows is full, as the elements reach beyond it. -/
theorem length_of_mem_dropLast (positive : 0 < width) {elements line : List α}
    (member : line ∈ (rows width elements).dropLast) : line.length = width := by
  rw [rows, ← List.map_dropLast] at member
  obtain ⟨index, inside, rfl⟩ := List.mem_map.mp member
  have early : index < elements.length ⌈/⌉ width - 1 := by
    rw [List.dropLast_eq_take, List.length_range] at inside
    simpa using inside
  have nonempty : 0 < elements.length := by
    by_contra empty
    rw [Nat.eq_zero_of_not_pos empty, zero_ceilDiv] at early
    omega
  have reaches := width_mul_pred_lt positive nonempty
  have behind : width * (index + 1) ≤ width * (elements.length ⌈/⌉ width - 1) :=
    Nat.mul_le_mul_left width early
  rw [Nat.mul_succ] at behind
  rw [row_length]
  omega

theorem getLast?_rows (positive : 0 < width) {elements : List α} (nonempty : 0 < elements.length) :
    (rows width elements).getLast?.map List.length =
      some (elements.length - width * (elements.length ⌈/⌉ width - 1)) := by
  have reaches := width_mul_pred_lt positive nonempty
  have covered : elements.length ≤ width * (elements.length ⌈/⌉ width) := le_smul_ceilDiv positive
  obtain ⟨before, count⟩ : ∃ before, elements.length ⌈/⌉ width = before + 1 := by
    cases rowCount : elements.length ⌈/⌉ width with
    | zero =>
      rw [rowCount] at covered
      omega
    | succ before => exact ⟨before, rfl⟩
  rw [count, Nat.mul_succ] at covered
  simp only [rows, count, List.range_succ, List.map_append, List.map_cons, List.map_nil,
    List.getLast?_concat, Option.map_some, row_length, Nat.add_sub_cancel]
  congr 1
  omega

/-! ## Writing element by element -/

variable (cell : α → List β) (ending : List β)

/-- A row as it is written: its elements, and the ending. -/
def line (elements : List α) : List β := elements.flatMap cell ++ ending

/-- What has been written after `count` elements: the full rows, and the row begun. -/
def written (width : Nat) (elements : List α) (count : Nat) : List β :=
  ((List.range (count / width)).map (row width elements)).flatMap (line cell ending) ++
    ((elements.take count).drop (width * (count / width))).flatMap cell

theorem written_zero (elements : List α) : written cell ending width elements 0 = [] := by
  simp [written]

/-- One round: the element, and behind the last of a row the ending. -/
theorem written_succ {elements : List α} {index : Nat} {element : α}
    (found : elements[index]? = some element) :
    written cell ending width elements (index + 1) =
      written cell ending width elements index ++ cell element ++
        (if (index + 1) % width = 0 then ending else []) := by
  have begun : width * (index / width) ≤ (elements.take index).length := by
    have inside := (List.getElem?_eq_some_iff.mp found).1
    have before := Nat.mul_div_le index width
    rw [List.length_take]
    omega
  have grown : (elements.take (index + 1)).drop (width * (index / width)) =
      (elements.take index).drop (width * (index / width)) ++ [element] := by
    rw [List.take_add_one, found, List.drop_append_of_le_length begun]
    rfl
  by_cases full : (index + 1) % width = 0
  · have nextRow : (index + 1) / width = index / width + 1 := by
      rw [Nat.succ_div, if_pos (Nat.dvd_of_mod_eq_zero full)]
    have rowEnd : index + 1 = width * (index / width + 1) := by
      rw [← nextRow, Nat.mul_div_cancel' (Nat.dvd_of_mod_eq_zero full)]
    have completed : row width elements (index / width) =
        (elements.take index).drop (width * (index / width)) ++ [element] := by
      rw [← grown, rowEnd, Nat.mul_succ, ← List.take_drop]
      rfl
    have started : (elements.take (index + 1)).drop (width * (index / width + 1)) = [] := by
      apply List.drop_eq_nil_of_le
      rw [List.length_take, ← rowEnd]
      exact Nat.min_le_left _ _
    simp only [written, nextRow, started, List.range_succ, List.map_append, List.map_cons,
      List.map_nil, List.flatMap_append, List.flatMap_cons, List.flatMap_nil, List.append_nil,
      completed, line, if_pos full, List.append_assoc]
  · have sameRow : (index + 1) / width = index / width := by
      rw [Nat.succ_div, if_neg fun divides => full (Nat.mod_eq_zero_of_dvd divides), Nat.add_zero]
    simp only [written, sameRow, grown, List.flatMap_append, List.flatMap_cons, List.flatMap_nil,
      List.append_nil, if_neg full, List.append_assoc]

/-- Behind the last element only a partial row still lacks its ending. -/
theorem written_all (positive : 0 < width) (elements : List α) :
    written cell ending width elements elements.length ++
        (if elements.length % width ≠ 0 then ending else []) =
      (rows width elements).flatMap (line cell ending) := by
  have split := Nat.div_add_mod elements.length width
  by_cases full : elements.length % width = 0
  · have count : elements.length ⌈/⌉ width = elements.length / width := by
      apply Nat.le_antisymm ((ceilDiv_le_iff_le_mul positive).mpr (by omega))
      exact Nat.div_le_of_le_mul (le_smul_ceilDiv positive)
    have nothing : elements.drop (width * (elements.length / width)) = [] :=
      List.drop_eq_nil_of_le (by omega)
    simp [written, rows, count, nothing, full]
  · have below := Nat.mod_lt elements.length positive
    have count : elements.length ⌈/⌉ width = elements.length / width + 1 := by
      apply Nat.le_antisymm
      · apply (ceilDiv_le_iff_le_mul positive).mpr
        rw [Nat.mul_succ]
        omega
      · by_contra few
        have covered : elements.length ≤ width * (elements.length ⌈/⌉ width) :=
          le_smul_ceilDiv positive
        have fewer : width * (elements.length ⌈/⌉ width) ≤ width * (elements.length / width) :=
          Nat.mul_le_mul_left width (by omega)
        omega
    have lastRow : row width elements (elements.length / width) =
        elements.drop (width * (elements.length / width)) := by
      apply List.take_of_length_le
      rw [List.length_drop]
      omega
    simp [written, rows, count, List.range_succ, line, lastRow, full]

/-! ## A buffer that is emptied when it is full -/

/-- The rows a writer has handed on that hands on each row as soon as it is full. -/
def fullRows (width : Nat) (elements : List α) : List (List α) :=
  (List.range (elements.length / width)).map (row width elements)

/-- What such a writer still holds. -/
def pending (width : Nat) (elements : List α) : List α :=
  elements.drop (width * (elements.length / width))

theorem length_pending (elements : List α) :
    (pending width elements).length = elements.length % width := by
  rw [pending, List.length_drop]
  exact Nat.mod_eq_sub_mul_div.symm

theorem flatten_fullRows (elements : List α) :
    (fullRows width elements).flatten ++ pending width elements = elements := by
  rw [fullRows, flatten_first_rows]
  exact List.take_append_drop _ _

theorem length_of_mem_fullRows {elements full : List α}
    (member : full ∈ fullRows width elements) : full.length = width := by
  obtain ⟨index, inside, rfl⟩ := List.mem_map.mp member
  have reaches : width * (index + 1) ≤ elements.length :=
    Nat.le_trans (Nat.mul_le_mul_left width (List.mem_range.mp inside)) (Nat.mul_div_le _ _)
  rw [Nat.mul_succ] at reaches
  rw [row_length]
  omega

/-- Another element does not change the rows in front of it. -/
theorem map_row_append (elements : List α) (element : α) :
    (List.range (elements.length / width)).map (row width (elements ++ [element])) =
      fullRows width elements := by
  apply List.map_congr_left
  intro index inside
  have reaches : width * (index + 1) ≤ elements.length :=
    Nat.le_trans (Nat.mul_le_mul_left width (List.mem_range.mp inside)) (Nat.mul_div_le _ _)
  rw [Nat.mul_succ] at reaches
  rw [row, row, List.drop_append_of_le_length (by omega), List.take_append_of_le_length]
  rw [List.length_drop]
  omega

theorem drop_append_singleton (elements : List α) (element : α) :
    (elements ++ [element]).drop (width * (elements.length / width)) =
      pending width elements ++ [element] :=
  List.drop_append_of_le_length (Nat.mul_div_le _ _)

theorem fullRows_append_of_room {elements : List α} {element : α}
    (room : (pending width elements).length + 1 < width) :
    fullRows width (elements ++ [element]) = fullRows width elements ∧
      pending width (elements ++ [element]) = pending width elements ++ [element] := by
  rw [length_pending] at room
  have same : (elements ++ [element]).length / width = elements.length / width := by
    rw [List.length_append, List.length_singleton, Nat.succ_div, if_neg, Nat.add_zero]
    intro divides
    have full := Nat.mod_eq_zero_of_dvd divides
    rw [Nat.add_mod, Nat.mod_eq_of_lt (by omega : 1 < width), Nat.mod_eq_of_lt room] at full
    omega
  constructor
  · rw [fullRows, same, map_row_append]
  · rw [pending, same, drop_append_singleton]

theorem fullRows_append_of_full {elements : List α} {element : α}
    (full : (pending width elements).length + 1 = width) :
    fullRows width (elements ++ [element]) =
        fullRows width elements ++ [pending width elements ++ [element]] ∧
      pending width (elements ++ [element]) = [] := by
  rw [length_pending] at full
  have split := Nat.div_add_mod elements.length width
  have count : (elements ++ [element]).length = width * (elements.length / width + 1) := by
    rw [List.length_append, List.length_singleton, Nat.mul_succ]
    omega
  have next : (elements ++ [element]).length / width = elements.length / width + 1 := by
    rw [count, Nat.mul_div_cancel_left _ (by omega)]
  constructor
  · rw [fullRows, next, List.range_succ, List.map_append, map_row_append, List.map_singleton, row,
      drop_append_singleton, List.take_of_length_le]
    rw [List.length_append, length_pending, List.length_singleton]
    omega
  · rw [pending, next, ← count]
    exact List.drop_length

end Rows
