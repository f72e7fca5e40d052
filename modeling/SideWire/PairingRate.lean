import Mathlib.Algebra.GroupWithZero.Nat
import SideWire.Base.SlidingWindow

namespace SideWire.PairingRate

open SideWire.SlidingWindow

def maxPairingAttemptsPerIp : Nat := 5

/-- In nanoseconds, as each `Instant` is. -/
def pairingRateWindow : Nat := 60 * 10 ^ 9

/-- What the guard knows of each address, where one without an entry has an empty deque; what
it knows of the PIN is left out. -/
structure PairingGuard (Ip : Type*) where
  perIp : Ip → List Nat

/-- `now.duration_since(at) > PAIRING_RATE_WINDOW`, where the difference saturates. -/
def outdated (now time : Nat) : Bool := decide (pairingRateWindow < now - time)

namespace PairingGuard

variable {Ip : Type*} [DecidableEq Ip]

def new : PairingGuard Ip := ⟨fun _ => []⟩

def allowIp (guard : PairingGuard Ip) (now : Nat) (ip : Ip) : Bool × PairingGuard Ip :=
  let attempts := (guard.perIp ip).dropWhile (outdated now)
  if maxPairingAttemptsPerIp ≤ attempts.length then
    (false, ⟨Function.update guard.perIp ip attempts⟩)
  else
    (true, ⟨Function.update guard.perIp ip (attempts ++ [now])⟩)

/-- The answers of a guard to one attempt after the other. -/
def history (guard : PairingGuard Ip) : List (Ip × Nat) → List (Entry Ip Nat)
  | [] => []
  | (ip, now) :: rest =>
      ⟨ip, now, (guard.allowIp now ip).1⟩ :: history (guard.allowIp now ip).2 rest

end PairingGuard

def expiry : Expiry Nat where
  past := outdated
  past_of_le := by
    intro now time earlier hle hpast
    simp only [outdated, decide_eq_true_eq] at hpast ⊢
    omega
  past_mono := by
    intro now later time hle hpast
    simp only [outdated, decide_eq_true_eq] at hpast ⊢
    omega

theorem outdated_eq_false_iff {now time : Nat} :
    outdated now time = false ↔ now ≤ time + pairingRateWindow := by
  simp only [outdated, decide_eq_false_iff_not]
  omega

section Answers

variable {Ip : Type*} [DecidableEq Ip]

/-- The allowed attempts of an address, in their order. -/
def allowedTimes (history : List (Entry Ip Nat)) (ip : Ip) : List Nat :=
  (history.filter fun entry => entry.allowed && decide (entry.key = ip)).map Entry.time

theorem allowedTimes_append (earlier later : List (Entry Ip Nat)) (ip : Ip) :
    allowedTimes (earlier ++ later) ip = allowedTimes earlier ip ++ allowedTimes later ip := by
  rw [allowedTimes, List.filter_append, List.map_append]
  rfl

theorem countP_allowedTimes (history : List (Entry Ip Nat)) (ip : Ip) (now : Nat) :
    (allowedTimes history ip).countP (fun time => !expiry.past now time) =
      history.countP (counts expiry ip now) := by
  rw [allowedTimes, List.countP_map, List.countP_filter]
  apply List.countP_congr
  intro entry _
  simp only [counts, Function.comp_apply, Bool.and_eq_true]
  exact and_comm

/-- Each deque stands for all the allowed attempts of its address. -/
def Keeps (guard : PairingGuard Ip) (now : Nat) (history : List (Entry Ip Nat)) : Prop :=
  ∀ ip, Represents expiry now (guard.perIp ip) (allowedTimes history ip)

namespace PairingGuard

theorem allowIp_eq (guard : PairingGuard Ip) (now : Nat) (ip : Ip) :
    guard.allowIp now ip =
      ((attempt expiry maxPairingAttemptsPerIp now (guard.perIp ip)).1,
        ⟨Function.update guard.perIp ip
          (attempt expiry maxPairingAttemptsPerIp now (guard.perIp ip)).2⟩) := by
  have hpast : expiry.past now = outdated now := rfl
  simp only [allowIp, attempt, prune, hpast]
  split_ifs <;> rfl

end PairingGuard

theorem keeps_new (now : Nat) : Keeps (.new : PairingGuard Ip) now [] :=
  fun _ => .nil now

theorem Keeps.allowIp {guard : PairingGuard Ip} {last now : Nat}
    {history : List (Entry Ip Nat)} (h : Keeps guard last history) (hle : last ≤ now)
    (ip : Ip) :
    ((guard.allowIp now ip).1 = true ↔
        history.countP (counts expiry ip now) < maxPairingAttemptsPerIp) ∧
      Keeps (guard.allowIp now ip).2 now
        (history ++ [⟨ip, now, (guard.allowIp now ip).1⟩]) := by
  obtain ⟨hanswer, hlog⟩ := ((h ip).later hle).attempt maxPairingAttemptsPerIp
  rw [countP_allowedTimes] at hanswer
  rw [guard.allowIp_eq]
  refine ⟨hanswer, ?_⟩
  intro other
  rw [allowedTimes_append]
  by_cases hother : other = ip
  · subst hother
    simp only [Function.update_self]
    cases hallowed : (attempt expiry maxPairingAttemptsPerIp now (guard.perIp other)).1 <;>
      simpa [allowedTimes, hallowed] using hlog
  · simp only [Function.update_of_ne hother]
    simpa [allowedTimes, Ne.symm hother] using (h other).later hle

/-- A run of calls continues an exact history exactly. -/
theorem Keeps.exact_history {guard : PairingGuard Ip} {last : Nat}
    {earlier : List (Entry Ip Nat)} (h : Keeps guard last earlier)
    (hexact : Exact expiry maxPairingAttemptsPerIp earlier) {attempts : List (Ip × Nat)}
    (hlast : ∀ attempt ∈ attempts, last ≤ attempt.2)
    (hsorted : (attempts.map Prod.snd).Pairwise (· ≤ ·)) :
    Exact expiry maxPairingAttemptsPerIp (earlier ++ guard.history attempts) := by
  induction attempts generalizing guard last earlier with
  | nil => rwa [PairingGuard.history, List.append_nil]
  | cons attempt attempts ih =>
      obtain ⟨ip, now⟩ := attempt
      obtain ⟨hnow, hsorted⟩ := List.pairwise_cons.mp hsorted
      obtain ⟨hanswer, hkeeps⟩ := h.allowIp (hlast _ List.mem_cons_self) ip
      have hnext := ih hkeeps ((exact_concat_iff _ _).mpr ⟨hexact, hanswer⟩)
        (fun attempt hattempt => hnow _ (List.mem_map_of_mem hattempt)) hsorted
      rwa [List.append_assoc] at hnext

theorem exact_history {attempts : List (Ip × Nat)}
    (hsorted : (attempts.map Prod.snd).Pairwise (· ≤ ·)) :
    Exact expiry maxPairingAttemptsPerIp (PairingGuard.new.history attempts) :=
  (keeps_new 0).exact_history (exact_nil _ _) (fun _ _ => Nat.zero_le _) hsorted

theorem map_history (guard : PairingGuard Ip) (attempts : List (Ip × Nat)) :
    (guard.history attempts).map (fun entry => (entry.key, entry.time)) = attempts := by
  induction attempts generalizing guard with
  | nil => rfl
  | cons attempt attempts ih => exact congrArg (attempt :: ·) (ih _)

theorem history_of_exact {history : List (Entry Ip Nat)}
    (hexact : Exact expiry maxPairingAttemptsPerIp history)
    (hsorted : (history.map Entry.time).Pairwise (· ≤ ·)) :
    PairingGuard.new.history (history.map fun entry => (entry.key, entry.time)) = history := by
  have htimes : (history.map fun entry => (entry.key, entry.time)).map Prod.snd =
      history.map Entry.time := by
    rw [List.map_map]
    rfl
  apply (exact_history (htimes ▸ hsorted)).unique hexact
  rw [map_history]

theorem times_history (guard : PairingGuard Ip) (attempts : List (Ip × Nat)) :
    (guard.history attempts).map Entry.time = attempts.map Prod.snd := by
  conv_rhs => rw [← map_history guard attempts, List.map_map]
  rfl

/-- Each call answers by the window of a minute over all the calls before it. -/
theorem allowIp_exact (attempts : List (Ip × Nat))
    (hsorted : (attempts.map Prod.snd).Pairwise (· ≤ ·)) :
    (PairingGuard.new.history attempts).map (fun entry => (entry.key, entry.time)) = attempts ∧
      (∀ before entry after, PairingGuard.new.history attempts = before ++ entry :: after →
        (entry.allowed = true ↔
          (before.filter fun earlier => earlier.allowed ∧ earlier.key = entry.key ∧
            entry.time ≤ earlier.time + pairingRateWindow).length < maxPairingAttemptsPerIp)) ∧
      (∀ ip start, ((PairingGuard.new.history attempts).filter fun entry => entry.allowed ∧
          entry.key = ip ∧ start ≤ entry.time ∧
            entry.time ≤ start + pairingRateWindow).length ≤ maxPairingAttemptsPerIp) ∧
      (∀ before denied after, PairingGuard.new.history attempts = before ++ denied :: after →
        denied.allowed = false →
        PairingGuard.new.history
          ((before ++ after).map fun entry => (entry.key, entry.time)) = before ++ after) ∧
      ∀ ip, PairingGuard.new.history (attempts.filter fun attempt => attempt.1 = ip) =
        (PairingGuard.new.history attempts).filter fun entry => entry.key = ip := by
  have hexact := exact_history hsorted
  have hmap := map_history PairingGuard.new attempts
  have htimes := times_history PairingGuard.new attempts
  rw [← htimes] at hsorted
  refine ⟨hmap, ?_, ?_, ?_, ?_⟩
  · intro before entry after hsplit
    rw [hexact before entry after hsplit, List.countP_eq_length_filter]
    have hcounts : before.filter (counts expiry entry.key entry.time) =
        before.filter fun earlier => earlier.allowed ∧ earlier.key = entry.key ∧
          entry.time ≤ earlier.time + pairingRateWindow := by
      apply List.filter_congr
      intro earlier _
      rw [Bool.eq_iff_iff]
      simp only [counts, expiry, Bool.and_eq_true, decide_eq_true_eq, Bool.not_eq_true',
        outdated_eq_false_iff, and_assoc]
    rw [hcounts]
  · intro ip start
    have hspan : expiry.past (start + pairingRateWindow) start = false :=
      outdated_eq_false_iff.mpr le_rfl
    have hle := hexact.countP_span_le ip hspan
    rw [List.countP_filter, List.countP_eq_length_filter] at hle
    convert hle using 3
    funext entry
    rw [Bool.eq_iff_iff]
    simp only [allowedFrom, Bool.and_eq_true, decide_eq_true_eq, and_assoc]
  · intro before denied after hsplit hdenied
    rw [hsplit] at hexact hsorted
    apply history_of_exact (hexact.erase_denied hdenied)
    exact hsorted.sublist (((List.Sublist.refl before).append
      (List.sublist_cons_self denied after)).map Entry.time)
  · intro ip
    have hfilter := history_of_exact (hexact.filter_key ip)
      (hsorted.sublist (List.filter_sublist.map Entry.time))
    rw [← hfilter]
    congr 1
    conv_lhs => rw [← hmap, List.filter_map]
    rfl

/-- Six calls of one address at one instant and one of another; then the first again, a
minute later and after that. -/
def burst : List (Nat × Nat) :=
  List.replicate 6 (1, 7) ++
    [(2, 7), (1, 7 + pairingRateWindow), (1, 8 + pairingRateWindow)]

theorem allowIp_exact_burst :
    (PairingGuard.new.history burst).map Entry.allowed =
        [true, true, true, true, true, false, true, false, true] ∧
      ∀ ip, PairingGuard.new.history (burst.filter fun attempt => attempt.1 = ip) =
        (PairingGuard.new.history burst).filter fun entry => entry.key = ip :=
  ⟨by decide, (allowIp_exact burst (by decide)).2.2.2.2⟩

end Answers

end SideWire.PairingRate
