import Mathlib.Data.List.Basic
import Mathlib.Data.List.Infix

/-!
Two lists that are read as transcripts, one of which tells a part of the other: where the one
is split at a mark, the other can be split there too.
-/

namespace SideWire.Transcript

variable {α β ι : Type*}

/-- What tells the mark tells nothing else. -/
def Alone (tell : α → List ι) (mark : ι) : Prop := ∀ x, mark ∈ tell x → tell x = [mark]

/-- A list around two of its elements. -/
structure Stretch (α : Type*) where
  before : List α
  first : α
  between : List α
  second : α
  after : List α

def Stretch.whole (stretch : Stretch α) : List α :=
  stretch.before ++ stretch.first :: (stretch.between ++ stretch.second :: stretch.after)

section Splitting

variable {tell : α → List ι} {tell' : β → List ι} {mark : ι} {front back : List ι}
  {list : List α} {other : List β}

theorem exists_split_at (halone : Alone tell mark)
    (h : list.flatMap tell = front ++ mark :: back) :
    ∃ before x after, list = before ++ x :: after ∧ before.flatMap tell = front ∧
      tell x = [mark] ∧ after.flatMap tell = back := by
  induction list generalizing front with
  | nil => simp at h
  | cons x list ih =>
      rw [List.flatMap_cons] at h
      rcases List.append_eq_append_iff.mp h with ⟨rest, rfl, hrest⟩ | ⟨rest, hx, hrest⟩
      · obtain ⟨before, y, after, rfl, rfl, hy, rfl⟩ := ih hrest
        exact ⟨x :: before, y, after, rfl, by rw [List.flatMap_cons], hy, rfl⟩
      · cases rest with
        | nil =>
            -- the mark comes with a later element
            rw [List.append_nil] at hx
            have hrest : list.flatMap tell = [] ++ mark :: back := hrest.symm
            obtain ⟨before, y, after, rfl, hbefore, hy, rfl⟩ := ih hrest
            refine ⟨x :: before, y, after, rfl, ?_, hy, rfl⟩
            rw [List.flatMap_cons, hbefore, List.append_nil, hx]
        | cons mark' rest =>
            obtain ⟨rfl, hback⟩ := List.cons.inj hrest
            have htell := halone x (by rw [hx]; simp)
            rw [htell] at hx
            obtain ⟨rfl, hnil⟩ : front = [] ∧ rest = [] := by
              have hlength := congrArg List.length hx
              simp only [List.length_append, List.length_cons, List.length_nil] at hlength
              constructor <;> apply List.eq_nil_of_length_eq_zero <;> omega
            subst hnil
            exact ⟨[], x, list, rfl, rfl, htell, hback.symm⟩

theorem exists_split {before after : List α} {x : α}
    (h : (before ++ x :: after).flatMap tell <+: other.flatMap tell')
    (hx : tell x = [mark]) (halone : Alone tell' mark) :
    ∃ before' y after', other = before' ++ y :: after' ∧
      before'.flatMap tell' = before.flatMap tell ∧ tell' y = [mark] ∧
      after.flatMap tell <+: after'.flatMap tell' := by
  obtain ⟨rest, hrest⟩ := h
  have hother : other.flatMap tell' =
      before.flatMap tell ++ mark :: (after.flatMap tell ++ rest) := by
    rw [← hrest, List.flatMap_append, List.flatMap_cons, hx]
    simp
  obtain ⟨before', y, after', rfl, hbefore, hy, hafter⟩ := exists_split_at halone hother
  exact ⟨before', y, after', rfl, hbefore, hy, rest, hafter.symm⟩

theorem exists_stretch {stretch : Stretch α} {mark' : ι}
    (h : stretch.whole.flatMap tell <+: other.flatMap tell')
    (hfirst : tell stretch.first = [mark]) (hsecond : tell stretch.second = [mark'])
    (halone : Alone tell' mark) (halone' : Alone tell' mark') :
    ∃ stretch' : Stretch β, other = stretch'.whole ∧
      stretch'.before.flatMap tell' = stretch.before.flatMap tell ∧
      tell' stretch'.first = [mark] ∧
      stretch'.between.flatMap tell' = stretch.between.flatMap tell ∧
      tell' stretch'.second = [mark'] := by
  obtain ⟨before, first, rest, rfl, hbefore, hfirst', hrest⟩ := exists_split h hfirst halone
  obtain ⟨between, second, after, rfl, hbetween, hsecond', -⟩ :=
    exists_split hrest hsecond halone'
  exact ⟨⟨before, first, between, second, after⟩, rfl, hbefore, hfirst', hbetween, hsecond'⟩

end Splitting

end SideWire.Transcript
