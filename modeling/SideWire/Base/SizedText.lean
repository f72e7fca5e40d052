import Mathlib.Algebra.GroupWithZero.Nat
import Mathlib.Data.List.Induction
import Mathlib.Data.List.Infix

/-!
Texts whose symbols take several units of storage, with offsets counted in units: which
offsets lie between symbols, and slices that are refused where one does not.
-/

namespace SideWire.SizedText

variable {α σ : Type*}

section Offsets

variable (size : α → Nat)

def len (text : List α) : Nat := (text.map size).sum

/-- The text before an offset and the text after it. -/
def splitAt : List α → Nat → Option (List α × List α)
  | text, 0 => some ([], text)
  | [], _ + 1 => none
  | c :: text, offset + 1 =>
      if size c ≤ offset + 1 then
        (splitAt text (offset + 1 - size c)).map fun parts => (c :: parts.1, parts.2)
      else none

def isBoundary (text : List α) (offset : Nat) : Bool := (splitAt size text offset).isSome

def slice (text : List α) (start stop : Nat) : Option (List α) := do
  let (front, _) ← splitAt size text stop
  let (_, middle) ← splitAt size front start
  pure middle

def replaceRange (text : List α) (start stop : Nat) (value : List α) : Option (List α) := do
  let (front, back) ← splitAt size text stop
  let (kept, _) ← splitAt size front start
  pure (kept ++ value ++ back)

/-- The last boundary up to an offset. -/
def floor (text : List α) : Nat → Nat
  | 0 => 0
  | offset + 1 =>
      if isBoundary size text (offset + 1) then offset + 1 else floor text offset

/-- The symbols, each with the offset at which it starts. -/
def indicesFrom : Nat → List α → List (Nat × α)
  | _, [] => []
  | offset, c :: text => (offset, c) :: indicesFrom (offset + size c) text

def indices (text : List α) : List (Nat × α) := indicesFrom size 0 text

/-- Where the last symbol of a kind starts. -/
def rfind (test : α → Bool) : List α → Option Nat
  | [] => none
  | c :: text =>
      match rfind test text with
      | some offset => some (size c + offset)
      | none => if test c then some 0 else none

@[simp] theorem len_nil : len size [] = 0 := rfl

@[simp] theorem len_cons (c : α) (text : List α) :
    len size (c :: text) = size c + len size text := by
  simp [len]

@[simp] theorem len_append (xs ys : List α) : len size (xs ++ ys) = len size xs + len size ys := by
  simp [len]

variable {size}

theorem len_le_of_starts {xs ys : List α} (h : xs <+: ys) : len size xs ≤ len size ys := by
  obtain ⟨rest, rfl⟩ := h
  simp

theorem rfind_spec {test : α → Bool} {text : List α} {offset : Nat}
    (h : rfind size test text = some offset) :
    ∃ front c back, text = front ++ c :: back ∧ len size front = offset ∧ test c = true := by
  induction text generalizing offset with
  | nil => simp [rfind] at h
  | cons c text ih =>
      cases hrest : rfind size test text with
      | some found =>
          simp only [rfind, hrest, Option.some.injEq] at h
          obtain ⟨front, c', back, rfl, hlen, htest⟩ := ih hrest
          exact ⟨c :: front, c', back, rfl, by rw [len_cons, hlen, h], htest⟩
      | none =>
          simp only [rfind, hrest, Option.ite_none_right_eq_some, Option.some.injEq] at h
          exact ⟨[], c, text, rfl, h.2, h.1⟩

theorem indicesFrom_append (offset : Nat) (xs ys : List α) :
    indicesFrom size offset (xs ++ ys) =
      indicesFrom size offset xs ++ indicesFrom size (offset + len size xs) ys := by
  induction xs generalizing offset with
  | nil => rfl
  | cons c xs ih => simp [indicesFrom, ih, Nat.add_assoc]

/-- What holds before the first symbol and is kept by each symbol read at its offset, holds
after the whole text. -/
theorem foldl_indices_induct {step : σ → Nat × α → σ} {start : σ} {motive : List α → σ → Prop}
    (hstart : motive [] start)
    (hstep : ∀ read state c, motive read state →
      motive (read ++ [c]) (step state (len size read, c))) (text : List α) :
    motive text ((indices size text).foldl step start) := by
  induction text using List.reverseRecOn with
  | nil => exact hstart
  | append_singleton text c ih =>
      have hlast : indices size (text ++ [c]) = indices size text ++ [(len size text, c)] := by
        rw [indices, indicesFrom_append, Nat.zero_add]
        rfl
      rw [hlast, List.foldl_append]
      exact hstep text _ c ih

end Offsets

section Boundaries

variable {size : α → Nat} (hsize : ∀ c, 0 < size c)
include hsize

theorem splitAt_eq_some_iff {text front back : List α} {offset : Nat} :
    splitAt size text offset = some (front, back) ↔
      text = front ++ back ∧ len size front = offset := by
  induction text generalizing front back offset with
  | nil =>
      cases offset with
      | zero => cases front <;> simp [splitAt, eq_comm]
      | succ offset => cases front <;> simp [splitAt]
  | cons c text ih =>
      cases offset with
      | zero =>
          cases front with
          | nil => simp [splitAt]
          | cons d front =>
              have hd := hsize d
              simp only [splitAt, len_cons, Option.some.injEq, Prod.mk.injEq]
              constructor
              · rintro ⟨hnil, -⟩
                cases hnil
              · rintro ⟨-, hlen⟩
                omega
      | succ offset =>
          cases front with
          | nil => simp [splitAt]
          | cons d front =>
              simp only [splitAt, Option.ite_none_right_eq_some, Option.map_eq_some_iff,
                Prod.exists, ih, Prod.mk.injEq, List.cons.injEq, List.cons_append, len_cons]
              constructor
              · rintro ⟨hle, front', back', ⟨rfl, hlen⟩, ⟨rfl, rfl⟩, rfl⟩
                exact ⟨⟨rfl, rfl⟩, by omega⟩
              · rintro ⟨⟨rfl, rfl⟩, hlen⟩
                have hc := hsize c
                exact ⟨by omega, front, back, ⟨rfl, by omega⟩, ⟨rfl, rfl⟩, rfl⟩

theorem splitAt_len (front back : List α) :
    splitAt size (front ++ back) (len size front) = some (front, back) :=
  (splitAt_eq_some_iff hsize).mpr ⟨rfl, rfl⟩

theorem slice_len (front middle back : List α) :
    slice size (front ++ middle ++ back) (len size front) (len size (front ++ middle)) =
      some middle := by
  rw [slice, splitAt_len hsize (front ++ middle) back]
  exact congrArg (Option.bind · _) (splitAt_len hsize front middle)

theorem replaceRange_len (front middle back value : List α) :
    replaceRange size (front ++ middle ++ back) (len size front) (len size (front ++ middle))
      value = some (front ++ value ++ back) := by
  rw [replaceRange, splitAt_len hsize (front ++ middle) back]
  exact congrArg (Option.bind · _) (splitAt_len hsize front middle)

/-- The floor of an offset lies between symbols, at or before the offset. -/
theorem floor_spec (text : List α) (offset : Nat) :
    floor size text offset ≤ offset ∧
      ∃ front back, text = front ++ back ∧ len size front = floor size text offset := by
  induction offset with
  | zero => exact ⟨Nat.le_refl 0, [], text, rfl, rfl⟩
  | succ offset ih =>
      rw [floor]
      split
      · next h =>
          obtain ⟨⟨front, back⟩, hsplit⟩ := Option.isSome_iff_exists.mp h
          obtain ⟨htext, hlen⟩ := (splitAt_eq_some_iff hsize).mp hsplit
          exact ⟨Nat.le_refl _, front, back, htext, hlen⟩
      · exact ⟨Nat.le_succ_of_le ih.1, ih.2⟩

theorem le_floor {front back : List α} {offset : Nat} (h : len size front ≤ offset) :
    len size front ≤ floor size (front ++ back) offset := by
  induction offset with
  | zero => simpa [floor] using h
  | succ offset ih =>
      rw [floor]
      split
      · exact h
      · next hboundary =>
          refine ih (Nat.le_of_lt_succ (Nat.lt_of_le_of_ne h fun heq => hboundary ?_))
          rw [isBoundary, ← Nat.succ_eq_add_one, ← heq, splitAt_len hsize]
          rfl

end Boundaries

end SideWire.SizedText
