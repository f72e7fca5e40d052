import Mathlib.Data.List.Infix

/-!
The longest list that all of several lists start with.
-/

namespace SideWire.CommonStart

variable {α : Type*} {values : List (List α)} {common value : List α}

structure LongestCommon (values : List (List α)) (common : List α) : Prop where
  starts : ∀ value ∈ values, common <+: value
  longest : ∀ start : List α, (∀ value ∈ values, start <+: value) → start <+: common

theorem LongestCommon.singleton (value : List α) : LongestCommon [value] value := by
  refine ⟨?_, fun start hstart => hstart value (List.mem_singleton_self value)⟩
  intro other hother
  rw [List.mem_singleton.mp hother]

theorem LongestCommon.snoc (h : LongestCommon values common) {less : List α}
    (hless : LongestCommon [common, value] less) : LongestCommon (values ++ [value]) less := by
  have hcommon : less <+: common := hless.starts common (by simp)
  have hvalue : less <+: value := hless.starts value (by simp)
  constructor
  · intro other hother
    rcases List.mem_append.mp hother with hold | hnew
    · exact hcommon.trans (h.starts other hold)
    · rwa [List.mem_singleton.mp hnew]
  · intro start hstart
    have hstart_common := h.longest start fun other hother =>
      hstart other (List.mem_append_left _ hother)
    refine hless.longest start ?_
    intro other hother
    rcases List.mem_pair.mp hother with rfl | rfl
    · exact hstart_common
    · exact hstart other (by simp)

theorem LongestCommon.append_of_nil (h : LongestCommon values []) (more : List (List α)) :
    LongestCommon (values ++ more) [] :=
  ⟨fun _ _ => List.nil_prefix, fun start hstart =>
    h.longest start fun value hvalue => hstart value (List.mem_append_left more hvalue)⟩

end SideWire.CommonStart
