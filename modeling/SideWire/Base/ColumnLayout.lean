import Mathlib.Data.List.Basic

/-!
Cells set in columns: a list arranged column by column into rows, and each row as a line in
which every cell but the last is padded to the width of a column.
-/

namespace SideWire.ColumnLayout

variable {α β : Type*}

/-- The entries of a list in one row, when `rows` of them make a column. -/
def rowOf (rows columns : Nat) (list : List α) (row : Nat) : List α :=
  (List.range columns).filterMap fun column => list[column * rows + row]?

def table (rows columns : Nat) (list : List α) : List (List α) :=
  (List.range rows).map (rowOf rows columns list)

/-- The entries of a table, column by column. -/
def columnMajor (columns : Nat) (cells : List (List α)) : List α :=
  (List.range columns).flatMap fun column => cells.filterMap fun row => row[column]?

/-- The cells of a row one behind the other, all but the last padded to `width`. -/
def line (width : Nat) (blank : β) : List (List β) → List β
  | [] => []
  | [cell] => cell
  | cell :: next :: cells =>
      cell ++ List.replicate (width - cell.length) blank ++ line width blank (next :: cells)

section Arrangement

variable {rows columns row : Nat} {list : List α}

theorem getElem?_filterMap_range {f : Nat → Option α}
    (hstop : ∀ m n, m ≤ n → f m = none → f n = none) (count k : Nat) :
    ((List.range count).filterMap f)[k]? = if k < count then f k else none := by
  induction count generalizing k with
  | zero => rfl
  | succ count ih =>
      rw [List.range_succ, List.filterMap_append]
      cases hlast : f count with
      | none =>
          rw [List.filterMap_cons_none hlast, List.filterMap_nil, List.append_nil, ih]
          by_cases hk : k = count
          · subst hk
            rw [if_neg (Nat.lt_irrefl k), if_pos (Nat.lt_succ_self k), hlast]
          · have hiff : k < count + 1 ↔ k < count := by omega
            simp only [hiff]
      | some value =>
          -- No value before the last one is missing, so that it comes at its own place.
          have hlength : ((List.range count).filterMap f).length = count := by
            refine Nat.le_antisymm (List.getElem?_eq_none_iff.mp ?_) (Nat.le_of_not_lt ?_)
            · rw [ih, if_neg (Nat.lt_irrefl count)]
            · intro hshort
              have hnone := ih ((List.range count).filterMap f).length
              rw [List.getElem?_eq_none_iff.mpr (Nat.le_refl _), if_pos hshort] at hnone
              rw [hstop _ _ (Nat.le_of_lt hshort) hnone.symm] at hlast
              cases hlast
          rw [List.filterMap_cons_some hlast, List.filterMap_nil]
          by_cases hk : k < count
          · rw [List.getElem?_append_left (by omega), ih, if_pos hk, if_pos (by omega)]
          · rw [List.getElem?_append_right (by omega), hlength]
            by_cases heq : k = count
            · subst heq
              rw [if_pos (Nat.lt_succ_self k), hlast, Nat.sub_self]
              rfl
            · rw [if_neg (by omega), List.getElem?_eq_none_iff, List.length_singleton]
              omega

theorem entry_stops (list : List α) (rows row m n : Nat) (hle : m ≤ n)
    (hnone : list[m * rows + row]? = none) : list[n * rows + row]? = none := by
  rw [List.getElem?_eq_none_iff] at hnone ⊢
  exact Nat.le_trans hnone (Nat.add_le_add_right (Nat.mul_le_mul_right rows hle) row)

theorem getElem?_rowOf (hfits : list.length ≤ rows * columns) (row k : Nat) :
    (rowOf rows columns list row)[k]? = list[k * rows + row]? := by
  rw [rowOf, getElem?_filterMap_range (entry_stops list rows row)]
  split_ifs with hk
  · rfl
  · symm
    rw [List.getElem?_eq_none_iff]
    calc list.length ≤ rows * columns := hfits
      _ ≤ k * rows := by
        rw [Nat.mul_comm]
        exact Nat.mul_le_mul_right rows (Nat.le_of_not_lt hk)
      _ ≤ k * rows + row := Nat.le_add_right _ _

theorem filterMap_range_getElem? (list : List α) (count : Nat) :
    (List.range count).filterMap (fun index => list[index]?) = list.take count := by
  apply List.ext_getElem?
  intro k
  have hstop : ∀ m n : Nat, m ≤ n → list[m]? = none → list[n]? = none := by
    intro m n hle hnone
    rw [List.getElem?_eq_none_iff] at hnone ⊢
    exact Nat.le_trans hnone hle
  rw [getElem?_filterMap_range hstop, List.getElem?_take]

/-- Read by columns, the table is the list. -/
theorem columnMajor_table (hfits : list.length ≤ rows * columns) :
    columnMajor columns (table rows columns list) = list := by
  have hcolumn : ∀ column, (table rows columns list).filterMap (fun row => row[column]?) =
      (list.drop (column * rows)).take rows := by
    intro column
    rw [table, List.filterMap_map, ← filterMap_range_getElem?]
    apply List.filterMap_congr
    intro row _
    rw [Function.comp_apply, getElem?_rowOf hfits, List.getElem?_drop]
  have htake : ∀ count, (List.range count).flatMap (fun column =>
      (table rows columns list).filterMap fun row => row[column]?) = list.take (count * rows) := by
    intro count
    induction count with
    | zero => simp
    | succ count ih =>
        rw [List.range_succ, List.flatMap_append, ih, List.flatMap_singleton, hcolumn,
          Nat.succ_mul, List.take_add]
  rw [columnMajor, htake, List.take_of_length_le (by rwa [Nat.mul_comm])]

theorem length_rowOf_le (rows columns : Nat) (list : List α) (row : Nat) :
    (rowOf rows columns list row).length ≤ columns := by
  have hle := List.length_filterMap_le (fun column => list[column * rows + row]?)
    (List.range columns)
  rwa [List.length_range] at hle

theorem mem_of_mem_rowOf {value : α} (h : value ∈ rowOf rows columns list row) :
    value ∈ list := by
  obtain ⟨column, -, hvalue⟩ := List.mem_filterMap.mp h
  exact List.mem_of_getElem? hvalue

end Arrangement

section Lines

variable {width longest : Nat} {blank : β} {cells : List (List β)}

theorem line_at (hwidth : ∀ cell ∈ cells, cell.length ≤ width) {k : Nat} {cell : List β}
    (hcell : cells[k]? = some cell) :
    ∃ front back, line width blank cells = front ++ cell ++ back ∧ front.length = k * width := by
  induction cells using line.induct generalizing k with
  | case1 => simp at hcell
  | case2 only =>
      cases k with
      | zero =>
          obtain rfl := Option.some.inj hcell
          exact ⟨[], [], by simp [line], by simp⟩
      | succ k => simp at hcell
  | case3 first next cells ih =>
      cases k with
      | zero =>
          obtain rfl := Option.some.inj hcell
          exact ⟨[], _, by rw [line, List.nil_append, List.append_assoc], by simp⟩
      | succ k =>
          obtain ⟨front, back, hline, hfront⟩ := ih
            (fun cell hmem => hwidth cell (List.mem_cons_of_mem first hmem)) hcell
          refine ⟨first ++ List.replicate (width - first.length) blank ++ front, back, ?_, ?_⟩
          · rw [line, hline]
            simp only [List.append_assoc]
          · have hle := hwidth first List.mem_cons_self
            simp only [List.length_append, List.length_replicate, hfront, Nat.succ_mul]
            omega

theorem length_line_le (hlongest : ∀ cell ∈ cells, cell.length ≤ longest)
    (hwidth : longest ≤ width) :
    (line width blank cells).length ≤ (cells.length - 1) * width + longest := by
  induction cells using line.induct with
  | case1 => simp [line]
  | case2 only => simpa [line] using hlongest only List.mem_cons_self
  | case3 first next cells ih =>
      have hrest := ih fun cell hmem => hlongest cell (List.mem_cons_of_mem first hmem)
      have hle := hlongest first List.mem_cons_self
      simp only [List.length_cons, Nat.add_sub_cancel] at hrest
      simp only [line, List.length_append, List.length_replicate, List.length_cons,
        Nat.add_sub_cancel, Nat.succ_mul]
      omega

end Lines

section Loops

theorem flatMap_padded (width : Nat) (blank : β) {f : Nat → Option (List β)}
    (hstop : ∀ m n, m ≤ n → f m = none → f n = none) (start count : Nat) :
    ((List.range' start count).flatMap fun column =>
        match f column with
        | none => []
        | some cell =>
            cell ++ if column + 1 < start + count ∧ (f (column + 1)).isSome then
              List.replicate (width - cell.length) blank else []) =
      line width blank ((List.range' start count).filterMap f) := by
  induction count generalizing start with
  | zero => rfl
  | succ count ih =>
      have hrest := ih (start + 1)
      rw [Nat.succ_add_eq_add_succ] at hrest
      rw [List.range'_succ, List.flatMap_cons, hrest]
      cases hcell : f start with
      | none => rw [List.filterMap_cons_none hcell, List.nil_append]
      | some cell =>
          rw [List.filterMap_cons_some hcell]
          cases count with
          | zero => simp [line]
          | succ count =>
              dsimp only
              cases hnext : f (start + 1) with
              | none =>
                  -- The cells have come to their end.
                  have hnil : (List.range' (start + 1) (count + 1)).filterMap f = [] := by
                    rw [List.filterMap_eq_nil_iff]
                    intro column hcolumn
                    have hle := (List.mem_range'_1.mp hcolumn).1
                    exact hstop _ _ hle hnext
                  rw [hnil, line, line, if_neg (by simp)]
                  simp
              | some next =>
                  rw [List.range'_succ, List.filterMap_cons_some hnext, line,
                    if_pos ⟨by omega, rfl⟩]

theorem flatMap_separated (separator : List β) (item : Nat → List β) (start count : Nat) :
    ((List.range' start count).flatMap fun row =>
        item row ++ if row + 1 < start + count then separator else []) =
      separator.intercalate ((List.range' start count).map item) := by
  induction count generalizing start with
  | zero => rfl
  | succ count ih =>
      have hrest := ih (start + 1)
      rw [Nat.succ_add_eq_add_succ] at hrest
      rw [List.range'_succ, List.flatMap_cons, List.map_cons, hrest]
      cases count with
      | zero => simp
      | succ count =>
          rw [if_pos (by omega), List.range'_succ, List.map_cons, List.intercalate_cons_cons]

end Loops

end SideWire.ColumnLayout
