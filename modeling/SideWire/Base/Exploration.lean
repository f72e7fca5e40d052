import Mathlib.Data.List.Nodup
import Mathlib.Logic.Relation

/-!
Walking a tree with a stack: what is taken from the stack is opened, and what is found under it
goes on the stack. `edge` leads from a node to those right under it.
-/

namespace SideWire.Exploration

open Relation

variable {Node : Type*}

/-- Each node stands right under one other at most, and the root under none. -/
structure Rooted (edge : Node → Node → Prop) (root : Node) : Prop where
  unique : ∀ a b c, edge a c → edge b c → a = b
  top : ∀ a, ¬ edge a root

/-- The nodes found so far are those that were opened and those on the stack. -/
structure Exploring (edge : Node → Node → Prop) (root : Node) (found opened stack : List Node) :
    Prop where
  split : found.Perm (opened ++ stack)
  nodup : found.Nodup
  start : root ∈ found
  reached : ∀ n ∈ found, ReflTransGen edge root n
  opens : ∀ n ∈ opened, ∀ c, edge n c → c ∈ found
  parent : ∀ front n back, found = front ++ n :: back →
    n = root ∨ ∃ a ∈ front, a ∈ opened ∧ edge a n

variable {edge : Node → Node → Prop} {root node : Node}
  {found opened stack stack' children : List Node}

theorem exploring_root : Exploring edge root [root] [] [root] where
  split := List.Perm.refl _
  nodup := List.nodup_singleton _
  start := List.mem_singleton_self _
  reached n hn := by
    rw [List.mem_singleton.mp hn]
  opens := nofun
  parent front n back hsplit := by
    have hn : n ∈ [root] := hsplit ▸ List.mem_append_right _ List.mem_cons_self
    exact .inl (List.mem_singleton.mp hn)

namespace Exploring

theorem node_mem (h : Exploring edge root found opened (node :: stack)) : node ∈ found :=
  h.split.mem_iff.mpr (List.mem_append_right _ List.mem_cons_self)

theorem not_opened (h : Exploring edge root found opened (node :: stack)) : node ∉ opened := by
  intro hopened
  have hnodup := h.split.nodup_iff.mp h.nodup
  exact (List.disjoint_of_nodup_append hnodup) hopened List.mem_cons_self

theorem not_found (h : Exploring edge root found opened (node :: stack))
    (hrooted : Rooted edge root) {c : Node} (hc : edge node c) : c ∉ found := by
  intro hmem
  obtain ⟨front, back, heq⟩ := List.append_of_mem hmem
  rcases h.parent front c back heq with rfl | ⟨a, -, hopened, hedge⟩
  · exact hrooted.top node hc
  · exact h.not_opened (hrooted.unique a node c hedge hc ▸ hopened)

theorem expand (h : Exploring edge root found opened (node :: stack))
    (hrooted : Rooted edge root) (hnodup : children.Nodup)
    (hchildren : ∀ c, c ∈ children ↔ edge node c) (hstack : stack'.Perm (children ++ stack)) :
    Exploring edge root (found ++ children) (opened ++ [node]) stack' where
  split := by
    refine (h.split.append_right children).trans ?_
    rw [List.append_assoc, List.append_assoc, List.cons_append, List.singleton_append]
    exact ((List.perm_append_comm.trans hstack.symm).cons node).append_left opened
  nodup := by
    refine List.Nodup.append h.nodup hnodup fun c hfound hc => ?_
    exact h.not_found hrooted ((hchildren c).mp hc) hfound
  start := List.mem_append_left _ h.start
  reached n hn := by
    rcases List.mem_append.mp hn with hn | hn
    · exact h.reached n hn
    · exact (h.reached node h.node_mem).tail ((hchildren n).mp hn)
  opens n hn c hc := by
    rcases List.mem_append.mp hn with hn | hn
    · exact List.mem_append_left _ (h.opens n hn c hc)
    · obtain rfl := List.mem_singleton.mp hn
      exact List.mem_append_right _ ((hchildren c).mpr hc)
  parent front n back heq := by
    rcases List.append_eq_append_iff.mp heq with ⟨more, rfl, hmore⟩ | ⟨more, rfl, hmore⟩
    · -- the node is among the children
      have hedge : edge node n := (hchildren n).mp (hmore ▸ List.mem_append_right _
        List.mem_cons_self)
      exact .inr ⟨node, List.mem_append_left _ h.node_mem,
        List.mem_append_right _ (List.mem_singleton_self _), hedge⟩
    · cases more with
      | nil =>
          have hedge : edge node n := (hchildren n).mp (by
            rw [← List.nil_append children, ← hmore]
            exact List.mem_cons_self)
          exact .inr ⟨node, by simpa using h.node_mem,
            List.mem_append_right _ (List.mem_singleton_self _), hedge⟩
      | cons n' more =>
          obtain ⟨rfl, rfl⟩ := List.cons.inj hmore
          refine (h.parent front n more rfl).imp_right ?_
          rintro ⟨a, hfront, hopened, hedge⟩
          exact ⟨a, hfront, List.mem_append_left _ hopened, hedge⟩

/-- When nothing is left on the stack, everything under the root was found. -/
theorem complete (h : Exploring edge root found opened []) (n : Node) :
    n ∈ found ↔ ReflTransGen edge root n := by
  refine ⟨h.reached n, fun hreached => ?_⟩
  induction hreached with
  | refl => exact h.start
  | tail _ hedge ih =>
      have hopened := h.split.mem_iff.mp ih
      rw [List.append_nil] at hopened
      exact h.opens _ hopened _ hedge

theorem opened_perm (h : Exploring edge root found opened []) : found.Perm opened := by
  simpa using h.split

end Exploring

end SideWire.Exploration
