import SideWire.Base.ColumnLayout
import SideWire.PairingStore

/-!
The listing of completion candidates on a Windows console: `format_completion_candidates`.
-/

namespace SideWire.CompletionListing

open SideWire.ByteString
open SideWire.ColumnLayout
open SideWire.PairingStore

/-- Division of integers, which panics for the divisor zero. -/
def checkedDiv (a b : Nat) : Option Nat := if b = 0 then none else some (a / b)

/-- `usize::div_ceil`. -/
def divCeil (a b : Nat) : Option Nat := do
  let quotient ← checkedDiv a b
  pure (if 0 < a % b then quotient + 1 else quotient)

/-- Subtraction of unsigned integers, which panics below zero. -/
def checkedSub (a b : Nat) : Option Nat := if b ≤ a then some (a - b) else none

def maxChars (candidates : List Text) : Nat := ((candidates.map List.length).max?).getD 1

def columnWidth (candidates : List Text) : Nat := max (maxChars candidates + 2) 2

/-- The inner loop, with the output so far. -/
def formatRow (candidates : List Text) (columns rows row : Nat) (output : Text) : Text :=
  (List.range columns).foldl (fun output column =>
    let index := column * rows + row
    match candidates[index]? with
    | none => output
    | some candidate =>
        let output := output ++ candidate
        if column + 1 < columns ∧ index + rows < candidates.length then
          output ++ List.replicate (columnWidth candidates - candidate.length) ' '
        else output) output

/-- It is `none` where the program would panic. -/
def formatCompletionCandidates (candidates : List Text) (candidateCount : UInt32)
    (terminalWidth : UInt16) : Option Text := do
  if candidates = [] then pure []
  else
    let fitting ← checkedDiv (max terminalWidth.toNat 1) (columnWidth candidates)
    let columns := max fitting 1
    let rows ← divCeil candidates.length columns
    let output := (List.range rows).foldl (fun output row =>
      let output := formatRow candidates columns rows row output
      if row + 1 < rows then output ++ "\r\n".toList else output) []
    let shown := UInt32.ofNat candidates.length
    if shown < candidateCount then
      let more ← checkedSub candidateCount.toNat shown.toNat
      pure (output ++ "\r\n... ".toList ++ decimalText more ++ " more".toList)
    else pure output

section Widths

variable {candidates : List Text}

theorem maxChars_spec (hne : candidates ≠ []) :
    (∃ candidate ∈ candidates, candidate.length = maxChars candidates) ∧
      ∀ candidate ∈ candidates, candidate.length ≤ maxChars candidates := by
  have hsome := List.isSome_max?_of_ne_nil (mt List.map_eq_nil_iff.mp hne :
    candidates.map List.length ≠ [])
  obtain ⟨longest, hlongest⟩ := Option.isSome_iff_exists.mp hsome
  obtain ⟨hmem, hle⟩ := List.max?_eq_some_iff.mp hlongest
  rw [maxChars, hlongest, Option.getD_some]
  refine ⟨List.mem_map.mp hmem, ?_⟩
  intro candidate hcandidate
  exact hle _ (List.mem_map_of_mem hcandidate)

theorem columnWidth_eq (candidates : List Text) :
    columnWidth candidates = maxChars candidates + 2 := Nat.max_eq_left (Nat.le_add_left 2 _)

theorem divCeil_spec (a : Nat) {b : Nat} (hb : 0 < b) :
    ∃ quotient, divCeil a b = some quotient ∧ a ≤ quotient * b ∧ (0 < a → 0 < quotient) := by
  have hsplit := Nat.div_add_mod a b
  rw [Nat.mul_comm] at hsplit
  have hlt := Nat.mod_lt a hb
  have hquotient : divCeil a b = some (if 0 < a % b then a / b + 1 else a / b) := by
    rw [divCeil, checkedDiv, if_neg (Nat.ne_of_gt hb)]
    rfl
  refine ⟨_, hquotient, ?_, ?_⟩
  · split_ifs with hrest
    · rw [Nat.succ_mul]
      omega
    · omega
  · intro ha
    split_ifs with hrest
    · exact Nat.succ_pos _
    · refine Nat.pos_of_ne_zero fun hzero => ?_
      rw [hzero] at hsplit
      omega

theorem columns_mul_le {terminalWidth width columns : Nat} (hwidth : 1 < width)
    (hcolumns : columns = max (max terminalWidth 1 / width) 1) :
    columns = 1 ∨ columns * width ≤ terminalWidth := by
  by_cases hone : max terminalWidth 1 / width ≤ 1
  · exact .inl (by omega)
  · have hmul := Nat.div_mul_le_self (max terminalWidth 1) width
    have htwo : 2 * width ≤ max terminalWidth 1 / width * width :=
      Nat.mul_le_mul_right width (by omega)
    have heq : columns = max terminalWidth 1 / width := by omega
    rw [← heq] at hmul htwo
    exact .inr (by omega)

end Widths

section Loops

variable {candidates : List Text} {columns rows : Nat}

theorem formatRow_eq (candidates : List Text) (columns rows row : Nat) (output : Text) :
    formatRow candidates columns rows row output =
      output ++ line (columnWidth candidates) ' ' (rowOf rows columns candidates row) := by
  have hpadded := flatMap_padded (columnWidth candidates) ' ' (entry_stops candidates rows row)
    0 columns
  rw [← List.range_eq_range'] at hpadded
  rw [rowOf, ← hpadded, formatRow, List.flatMap_def, ← List.foldl_append_eq_append]
  apply List.foldl_ext
  intro output column _
  dsimp only
  cases candidates[column * rows + row]? with
  | none => rw [List.append_nil]
  | some candidate =>
      have hnext : column * rows + row + rows < candidates.length ↔
          (candidates[(column + 1) * rows + row]?).isSome := by
        rw [Nat.succ_mul, Nat.add_right_comm, isSome_getElem?]
      simp only [hnext, Nat.zero_add]
      split_ifs with hpads
      · rw [List.append_assoc]
      · rw [List.append_nil]

theorem foldl_formatRow (candidates : List Text) (columns rows : Nat) :
    (List.range rows).foldl (fun output row =>
      let output := formatRow candidates columns rows row output
      if row + 1 < rows then output ++ "\r\n".toList else output) [] =
      "\r\n".toList.intercalate ((table rows columns candidates).map
        (line (columnWidth candidates) ' ')) := by
  have hseparated := flatMap_separated "\r\n".toList
    (fun row => line (columnWidth candidates) ' ' (rowOf rows columns candidates row)) 0 rows
  rw [← List.range_eq_range'] at hseparated
  rw [table, List.map_map]
  refine Eq.trans ?_ hseparated
  rw [List.flatMap_def, ← List.nil_append (List.flatten _), ← List.foldl_append_eq_append]
  apply List.foldl_ext
  intro output row _
  simp only [formatRow_eq, Nat.zero_add]
  split_ifs with hmore
  · rw [List.append_assoc]
  · rw [List.append_nil]

/-- What the listing ends in. -/
def moreText (candidates : List Text) (candidateCount : UInt32) : Text :=
  if UInt32.ofNat candidates.length < candidateCount then
    "\r\n... ".toList ++
      decimalText (candidateCount.toNat - (UInt32.ofNat candidates.length).toNat) ++ " more".toList
  else []

theorem formatCompletionCandidates_eq (hne : candidates ≠ []) (candidateCount : UInt32)
    (terminalWidth : UInt16) :
    ∃ columns rows,
      columns = max (max terminalWidth.toNat 1 / columnWidth candidates) 1 ∧
      candidates.length ≤ rows * columns ∧ 0 < rows ∧
      formatCompletionCandidates candidates candidateCount terminalWidth =
        some ("\r\n".toList.intercalate ((table rows columns candidates).map
          (line (columnWidth candidates) ' ')) ++ moreText candidates candidateCount) := by
  have hwidth : columnWidth candidates ≠ 0 := by
    rw [columnWidth_eq]
    exact Nat.succ_ne_zero _
  obtain ⟨rows, hrows, hfits, hpos⟩ := divCeil_spec candidates.length
    (Nat.le_max_right (max terminalWidth.toNat 1 / columnWidth candidates) 1)
  refine ⟨_, rows, rfl, hfits, hpos (List.length_pos_iff.mpr hne), ?_⟩
  rw [formatCompletionCandidates, if_neg hne, checkedDiv, if_neg hwidth]
  simp only [Option.bind_eq_bind, Option.bind_some, hrows, foldl_formatRow, moreText]
  split_ifs with hmore
  · have hle := Nat.le_of_lt (UInt32.lt_iff_toNat_lt.mp hmore)
    rw [checkedSub, if_pos hle, Option.bind_some]
    simp only [List.append_assoc]
    rfl
  · rw [List.append_nil]
    rfl

end Loops

/-- The candidates are laid out by columns, each of them once; every cell starts at its
column, no line is too long, and the count of what is left out adds up. -/
theorem formatCompletionCandidates_layout (candidates : List Text) (hne : candidates ≠ [])
    (candidateCount : UInt32) (terminalWidth : UInt16) :
    ∃ columns cells more,
      formatCompletionCandidates candidates candidateCount terminalWidth =
        some ("\r\n".toList.intercalate (cells.map (line (columnWidth candidates) ' ')) ++ more) ∧
      columnMajor columns cells = candidates ∧
      (∀ index row k, cells[index]? = some row →
        row[k]? = candidates[k * cells.length + index]?) ∧
      (∀ row ∈ cells,
        (∀ k cell, row[k]? = some cell → ∃ front back,
          line (columnWidth candidates) ' ' row = front ++ cell ++ back ∧
          front.length = k * columnWidth candidates) ∧
        ((line (columnWidth candidates) ' ' row).length ≤ terminalWidth.toNat ∨
          ∃ longest ∈ candidates,
            (line (columnWidth candidates) ' ' row).length ≤ longest.length)) ∧
      (candidates.length < candidateCount.toNat → ∃ rest,
        more = "\r\n... ".toList ++ decimalText rest ++ " more".toList ∧
        rest + candidates.length = candidateCount.toNat) ∧
      (candidateCount.toNat ≤ candidates.length → candidates.length < 2 ^ 32 → more = []) := by
  obtain ⟨columns, rows, hcolumns, hfits, hrows, hformat⟩ :=
    formatCompletionCandidates_eq hne candidateCount terminalWidth
  obtain ⟨⟨longest, hlongest, hmax⟩, hle⟩ := maxChars_spec hne
  have hwidth := columnWidth_eq candidates
  have hrow : ∀ row ∈ table rows columns candidates,
      row.length ≤ columns ∧ ∀ cell ∈ row, cell.length ≤ maxChars candidates := by
    intro row hmem
    obtain ⟨index, -, rfl⟩ := List.mem_map.mp hmem
    exact ⟨length_rowOf_le _ _ _ _, fun cell hcell => hle cell (mem_of_mem_rowOf hcell)⟩
  refine ⟨columns, table rows columns candidates, _, hformat, columnMajor_table hfits,
    ?_, ?_, ?_, ?_⟩
  · intro index row k hindex
    have hlength : (table rows columns candidates).length = rows := by
      rw [table, List.length_map, List.length_range]
    rw [table, List.getElem?_map, Option.map_eq_some_iff] at hindex
    obtain ⟨place, hplace, rfl⟩ := hindex
    obtain ⟨hbound, heq⟩ := List.getElem?_eq_some_iff.mp hplace
    rw [List.getElem_range] at heq
    rw [hlength, heq, getElem?_rowOf hfits]
  · intro row hmem
    obtain ⟨hcount, hcells⟩ := hrow row hmem
    refine ⟨fun k cell hcell => line_at (fun cell hmem => ?_) hcell, ?_⟩
    · exact Nat.le_trans (hcells cell hmem) (by omega)
    · have hlength : (line (columnWidth candidates) ' ' row).length ≤
          (row.length - 1) * columnWidth candidates + maxChars candidates :=
        length_line_le hcells (by omega)
      rcases columns_mul_le (by omega) hcolumns with hone | hfit
      · have hsingle : row.length - 1 = 0 := by omega
        rw [hsingle, Nat.zero_mul, Nat.zero_add] at hlength
        exact .inr ⟨longest, hlongest, by omega⟩
      · have hmul : (row.length - 1) * columnWidth candidates + columnWidth candidates ≤
            columns * columnWidth candidates := by
          rw [← Nat.succ_mul]
          refine Nat.mul_le_mul_right _ ?_
          have hpos : 0 < columns := by omega
          omega
        exact .inl (by omega)
  · intro hmore
    have hlt := candidateCount.toNat_lt
    have hshown : (UInt32.ofNat candidates.length).toNat = candidates.length := by
      rw [UInt32.toNat_ofNat']
      omega
    refine ⟨candidateCount.toNat - candidates.length, ?_, by omega⟩
    rw [moreText, if_pos (UInt32.lt_iff_toNat_lt.mpr (hshown.symm ▸ hmore)), hshown]
  · intro hall hbound
    have hshown : (UInt32.ofNat candidates.length).toNat = candidates.length := by
      rw [UInt32.toNat_ofNat']
      omega
    rw [moreText, if_neg]
    rw [UInt32.lt_iff_toNat_lt, hshown]
    exact Nat.not_lt.mpr hall

/-- The table of the unit test: two rows, the second one of a single candidate. -/
theorem formatCompletionCandidates_layout_greek :
    ∃ columns cells more,
      formatCompletionCandidates ["alpha".toList, "beta".toList, "gamma".toList] 5 16 =
        some ("\r\n".toList.intercalate (cells.map (line 7 ' ')) ++ more) ∧
      columnMajor columns cells = ["alpha".toList, "beta".toList, "gamma".toList] := by
  obtain ⟨columns, cells, more, hformat, hcells, -⟩ := formatCompletionCandidates_layout
    ["alpha".toList, "beta".toList, "gamma".toList] (by decide) 5 16
  exact ⟨columns, cells, more, hformat, hcells⟩

example : formatCompletionCandidates ["alpha".toList, "beta".toList, "gamma".toList] 5 16 =
    some "alpha  gamma\r\nbeta\r\n... 2 more".toList := by
  decide

end SideWire.CompletionListing
