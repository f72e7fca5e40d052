import Mathlib.Data.List.Basic

/-!
A pool of tasks as a list, in which one task at a time moves on.
-/

namespace SideWire.TaskPool

variable {Task : Type*}

/-- One `task` of the pool becomes `task'`. -/
structure Replaces (task task' : Task) (pool pool' : List Task) : Prop where
  split : ∃ before after, pool = before ++ task :: after ∧ pool' = before ++ task' :: after

namespace Replaces

variable {task task' : Task} {pool pool' : List Task}

theorem mem (h : Replaces task task' pool pool') : task ∈ pool := by
  obtain ⟨before, after, rfl, rfl⟩ := h.split
  simp

theorem countP (h : Replaces task task' pool pool') (p : Task → Bool) :
    pool'.countP p + (p task).toNat = pool.countP p + (p task').toNat := by
  obtain ⟨before, after, rfl, rfl⟩ := h.split
  simp only [List.countP_append, List.countP_cons]
  cases p task <;> cases p task' <;> simp <;> omega

theorem countP_eq (h : Replaces task task' pool pool') (p : Task → Bool)
    (hkeep : p task' = p task) : pool'.countP p = pool.countP p := by
  have hcount := h.countP p
  rw [hkeep] at hcount
  omega

theorem countP_add (h : Replaces task task' pool pool') (p : Task → Bool)
    (hold : p task = false) (hnew : p task' = true) : pool'.countP p = pool.countP p + 1 := by
  have hcount := h.countP p
  rw [hold, hnew] at hcount
  exact hcount

theorem countP_sub (h : Replaces task task' pool pool') (p : Task → Bool)
    (hold : p task = true) (hnew : p task' = false) : pool'.countP p + 1 = pool.countP p := by
  have hcount := h.countP p
  rw [hold, hnew] at hcount
  exact hcount

theorem countP_acquire (h : Replaces task task' pool pool') (p : Task → Bool)
    (hold : p task = false) (hnew : p task' = true) {locked : Bool}
    (hheld : pool.countP p = locked.toNat) (hfree : locked = false) :
    pool'.countP p = true.toNat := by
  rw [h.countP_add p hold hnew, hheld, hfree]
  rfl

theorem countP_release (h : Replaces task task' pool pool') (p : Task → Bool)
    (hold : p task = true) (hnew : p task' = false) {locked : Bool}
    (hheld : pool.countP p = locked.toNat) : pool'.countP p = false.toNat := by
  have hcount := h.countP_sub p hold hnew
  have hle := Bool.toNat_le locked
  simp only [Bool.toNat_false]
  omega

theorem forall_mem (h : Replaces task task' pool pool') {P : Task → Prop}
    (hpool : ∀ other ∈ pool, P other) (htask : P task') : ∀ other ∈ pool', P other := by
  obtain ⟨before, after, rfl, rfl⟩ := h.split
  simp only [List.forall_mem_append, List.forall_mem_cons] at hpool ⊢
  exact ⟨hpool.1, htask, hpool.2.2⟩

theorem exists_mem (h : Replaces task task' pool pool') {P : Task → Prop}
    (hpool : ∃ other ∈ pool, P other) (htask : P task → P task') : ∃ other ∈ pool', P other := by
  obtain ⟨before, after, rfl, rfl⟩ := h.split
  simp only [List.mem_append, List.mem_cons] at hpool ⊢
  rcases hpool with ⟨other, hmem | rfl | hmem, hother⟩
  · exact ⟨other, .inl hmem, hother⟩
  · exact ⟨task', .inr (.inl rfl), htask hother⟩
  · exact ⟨other, .inr (.inr hmem), hother⟩

theorem append (h : Replaces task task' pool pool') (more : List Task) :
    Replaces task task' (pool ++ more) (pool' ++ more) := by
  obtain ⟨before, after, rfl, rfl⟩ := h.split
  exact ⟨before, after ++ more, by simp, by simp⟩

theorem eq_or_mem (h : Replaces task task' pool pool') {other : Task} (hmem : other ∈ pool) :
    other = task ∨ other ∈ pool' := by
  obtain ⟨before, after, rfl, rfl⟩ := h.split
  simp only [List.mem_append, List.mem_cons] at hmem ⊢
  rcases hmem with hmem | heq | hmem
  · exact .inr (.inl hmem)
  · exact .inl heq
  · exact .inr (.inr (.inr hmem))

theorem map_eq {α : Type*} (h : Replaces task task' pool pool') (f : Task → α)
    (hkeep : f task' = f task) : pool'.map f = pool.map f := by
  obtain ⟨before, after, rfl, rfl⟩ := h.split
  simp [hkeep]

theorem mem_new (h : Replaces task task' pool pool') : task' ∈ pool' := by
  obtain ⟨before, after, rfl, rfl⟩ := h.split
  simp

theorem last (earlier : List Task) (task task' : Task) :
    Replaces task task' (earlier ++ [task]) (earlier ++ [task']) :=
  ⟨earlier, [], rfl, rfl⟩

end Replaces

theorem exists_mem_append {pool more : List Task} {P : Task → Prop}
    (h : ∃ task ∈ pool, P task) : ∃ task ∈ pool ++ more, P task := by
  obtain ⟨task, hmem, htask⟩ := h
  exact ⟨task, List.mem_append_left _ hmem, htask⟩

theorem countP_middle (p : Task → Bool) (before after : List Task) (task : Task) :
    (before ++ task :: after).countP p = (before ++ after).countP p + (p task).toNat := by
  simp only [List.countP_append, List.countP_cons]
  cases p task with
  | false => simp
  | true =>
      simp only [if_true, Bool.toNat_true]
      omega

theorem Replaces.countP_eq_zero {task task' : Task} {pool pool' : List Task}
    (h : Replaces task task' pool pool') {lock p : Task → Bool} (hlock : pool.countP lock ≤ 1)
    (hold : lock task = true) (hp : ∀ other, p other = true → lock other = true)
    (htask : p task = false) : pool.countP p = 0 := by
  obtain ⟨before, after, rfl, _⟩ := h.split
  rw [countP_middle, hold] at hlock
  rw [countP_middle, htask]
  have hmono : (before ++ after).countP p ≤ (before ++ after).countP lock :=
    List.countP_mono_left fun other _ => hp other
  simp only [Bool.toNat_true, Bool.toNat_false] at hlock ⊢
  omega

/-- The holder of a lock may change what is known of its other holders, since there are none. -/
theorem Replaces.forall_mem_holder {task task' : Task} {pool pool' : List Task}
    (h : Replaces task task' pool pool') {lock : Task → Bool} (hlock : pool.countP lock ≤ 1)
    (hold : lock task = true) {P Q : Task → Prop} (hpool : ∀ other ∈ pool, P other)
    (hothers : ∀ other, lock other = false → P other → Q other) (htask : Q task') :
    ∀ other ∈ pool', Q other := by
  obtain ⟨before, after, rfl, rfl⟩ := h.split
  rw [countP_middle, hold, Bool.toNat_true] at hlock
  have hfree : ∀ other ∈ before ++ after, lock other = false := by
    have hnone : (before ++ after).countP lock = 0 := by omega
    intro other hmem
    exact Bool.not_eq_true _ ▸ List.countP_eq_zero.mp hnone other hmem
  simp only [List.forall_mem_append, List.forall_mem_cons] at hpool hfree ⊢
  exact ⟨fun other hmem => hothers other (hfree.1 other hmem) (hpool.1 other hmem), htask,
    fun other hmem => hothers other (hfree.2 other hmem) (hpool.2.2 other hmem)⟩

theorem Replaces.eq_of_countP_le {task task' : Task} {pool pool' : List Task}
    (h : Replaces task task' pool pool') {p : Task → Bool} (hone : pool.countP p ≤ 1)
    (htask : p task = true) {other : Task} (hmem : other ∈ pool) (hother : p other = true) :
    other = task := by
  obtain ⟨before, after, rfl, _⟩ := h.split
  rw [countP_middle, htask] at hone
  simp only [List.mem_append, List.mem_cons] at hmem
  by_contra hne
  have hrest : other ∈ before ++ after := by
    rcases hmem with hmem | hmem | hmem
    · exact List.mem_append_left _ hmem
    · exact absurd hmem hne
    · exact List.mem_append_right _ hmem
  have hpos : 0 < (before ++ after).countP p := List.countP_pos_iff.mpr ⟨other, hrest, hother⟩
  simp only [Bool.toNat_true] at hone
  omega

theorem countP_le_add {p q r : Task → Bool}
    (h : ∀ task, p task = true → q task = true ∨ r task = true)
    (pool : List Task) : pool.countP p ≤ pool.countP q + pool.countP r := by
  induction pool with
  | nil => simp
  | cons task pool ih =>
      have htask := h task
      simp only [List.countP_cons]
      cases hp : p task <;> cases hq : q task <;> cases hr : r task <;> simp_all <;> omega

theorem countP_pos_of_mem {p : Task → Bool} {pool : List Task} {task : Task}
    (hmem : task ∈ pool) (htask : p task = true) : 0 < pool.countP p :=
  List.countP_pos_iff.mpr ⟨task, hmem, htask⟩

end SideWire.TaskPool
