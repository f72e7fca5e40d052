import Mathlib.Data.List.Infix

/-!
A channel that keeps the order of what is put into it, until it is cut: then what it holds
last may be lost, and nothing more gets through.
-/

namespace SideWire.OrderedChannel

variable {α : Type*}

/-- `sent` and `taken` keep all that was ever put in and taken out. -/
structure Channel (α : Type*) where
  sent : List α
  taken : List α
  queue : List α
  isCut : Bool
  ordered : taken ++ queue <+: sent
  whole : isCut = false → taken ++ queue = sent

namespace Channel

def empty : Channel α := ⟨[], [], [], false, List.prefix_refl _, fun _ => rfl⟩

variable (c : Channel α)

/-- What is put into a channel that is cut is lost. -/
def put (x : α) : Channel α where
  sent := c.sent ++ [x]
  taken := c.taken
  queue := if c.isCut then c.queue else c.queue ++ [x]
  isCut := c.isCut
  ordered := by
    split
    · exact c.ordered.trans (List.prefix_append _ _)
    · rename_i hcut
      rw [← List.append_assoc, c.whole (by simpa using hcut)]
  whole hcut := by
    rw [if_neg (by simp [hcut]), ← List.append_assoc, c.whole hcut]

def take (x : α) (rest : List α) (h : c.queue = x :: rest) : Channel α where
  sent := c.sent
  taken := c.taken ++ [x]
  queue := rest
  isCut := c.isCut
  ordered := by
    have hordered := c.ordered
    simpa [h] using hordered
  whole hcut := by
    have hwhole := c.whole hcut
    simpa [h] using hwhole

def cut (kept : List α) (h : kept <+: c.queue) : Channel α where
  sent := c.sent
  taken := c.taken
  queue := kept
  isCut := true
  ordered := ((List.prefix_append_right_inj c.taken).mpr h).trans c.ordered
  whole hcut := Bool.noConfusion hcut

@[simp] theorem sent_put (x : α) : (c.put x).sent = c.sent ++ [x] := rfl
@[simp] theorem taken_put (x : α) : (c.put x).taken = c.taken := rfl
@[simp] theorem isCut_put (x : α) : (c.put x).isCut = c.isCut := rfl

theorem queue_put {x : α} (hcut : c.isCut = false) : (c.put x).queue = c.queue ++ [x] :=
  if_neg (by simp [hcut])

variable {c}

@[simp] theorem sent_take {x : α} {rest : List α} (h : c.queue = x :: rest) :
    (c.take x rest h).sent = c.sent := rfl
@[simp] theorem taken_take {x : α} {rest : List α} (h : c.queue = x :: rest) :
    (c.take x rest h).taken = c.taken ++ [x] := rfl
@[simp] theorem queue_take {x : α} {rest : List α} (h : c.queue = x :: rest) :
    (c.take x rest h).queue = rest := rfl
@[simp] theorem isCut_take {x : α} {rest : List α} (h : c.queue = x :: rest) :
    (c.take x rest h).isCut = c.isCut := rfl

@[simp] theorem sent_cut {kept : List α} (h : kept <+: c.queue) : (c.cut kept h).sent = c.sent :=
  rfl
@[simp] theorem taken_cut {kept : List α} (h : kept <+: c.queue) :
    (c.cut kept h).taken = c.taken := rfl
@[simp] theorem isCut_cut {kept : List α} (h : kept <+: c.queue) : (c.cut kept h).isCut = true :=
  rfl

variable (c)

theorem taken_prefix : c.taken <+: c.sent := (List.prefix_append _ _).trans c.ordered

variable {c}

theorem mem_sent_of_mem_queue {x : α} (h : x ∈ c.queue) : x ∈ c.sent :=
  c.ordered.mem (List.mem_append_right _ h)

theorem mem_sent {x : α} (h : x ∈ c.taken) : x ∈ c.sent := c.taken_prefix.mem h

theorem taken_eq_sent (hcut : c.isCut = false) (hqueue : c.queue = []) : c.taken = c.sent := by
  have hwhole := c.whole hcut
  rwa [hqueue, List.append_nil] at hwhole

theorem eq_of_prefix_of_last {l front : List α} {last : α} {p : α → Prop}
    (hl : l <+: front ++ [last]) (hfront : ∀ x ∈ front, ¬ p x) {x : α} (hx : x ∈ l) (hp : p x) :
    l = front ++ [last] := by
  rcases List.prefix_concat_iff.mp hl with heq | hshort
  · exact heq
  · exact absurd hp (hfront x (hshort.mem hx))

theorem taken_eq_sent_of_last {front : List α} {last : α} {p : α → Prop}
    (hsent : c.sent = front ++ [last]) (hfront : ∀ x ∈ front, ¬ p x) {x : α} (hx : x ∈ c.taken)
    (hp : p x) : c.taken = c.sent := by
  rw [hsent]
  exact eq_of_prefix_of_last (hsent ▸ c.taken_prefix) hfront hx hp

end Channel

end SideWire.OrderedChannel
