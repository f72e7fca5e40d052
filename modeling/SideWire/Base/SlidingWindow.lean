import Mathlib.Data.List.Induction
import Mathlib.Data.List.TakeWhile
import Mathlib.Order.Lattice

/-!
Attempts that are limited for each key by a window of time: the answers that follow from the
whole history of attempts, and a log of times, pruned at its front, that gives them.
-/

namespace SideWire.SlidingWindow

/-- When a time no longer counts: `past now time`. Earlier times are past sooner, and what is
past stays so. -/
structure Expiry (τ : Type*) [LE τ] where
  past : τ → τ → Bool
  past_of_le : ∀ {now time earlier}, earlier ≤ time → past now time = true →
    past now earlier = true
  past_mono : ∀ {now later time}, now ≤ later → past now time = true → past later time = true

/-- An attempt and its answer. -/
structure Entry (κ τ : Type*) where
  key : κ
  time : τ
  allowed : Bool
  deriving DecidableEq

section History

variable {κ τ : Type*} [DecidableEq κ] [LE τ] (expiry : Expiry τ) (limit : Nat)

/-- The earlier entry counts against an attempt of the key. -/
def counts (key : κ) (now : τ) (earlier : Entry κ τ) : Bool :=
  earlier.allowed && decide (earlier.key = key) && !expiry.past now earlier.time

/-- Each attempt is allowed just where fewer than `limit` earlier ones count against it. -/
def Exact (history : List (Entry κ τ)) : Prop :=
  ∀ before entry after, history = before ++ entry :: after →
    (entry.allowed = true ↔ before.countP (counts expiry entry.key entry.time) < limit)

theorem exact_nil : Exact expiry limit ([] : List (Entry κ τ)) := by
  intro before entry after h
  simp at h

theorem exact_concat_iff {history : List (Entry κ τ)} {entry : Entry κ τ} :
    Exact expiry limit (history ++ [entry]) ↔ Exact expiry limit history ∧
      (entry.allowed = true ↔
        history.countP (counts expiry entry.key entry.time) < limit) := by
  constructor
  · intro h
    refine ⟨?_, h history entry [] rfl⟩
    rintro before other after rfl
    exact h before other (after ++ [entry]) (by simp)
  · rintro ⟨hhistory, hentry⟩ before other after heq
    rcases List.eq_nil_or_concat after with rfl | ⟨after, last, rfl⟩
    · obtain ⟨rfl, hother⟩ := List.append_inj' heq rfl
      obtain rfl := (List.cons.inj hother).1
      exact hentry
    · have heq' : history ++ [entry] = (before ++ other :: after) ++ [last] := by
        rw [heq, List.concat_eq_append, List.append_assoc, List.cons_append]
      exact hhistory before other after (List.append_inj' heq' rfl).1

variable {expiry limit}

theorem Exact.unique {history history' : List (Entry κ τ)} (h : Exact expiry limit history)
    (h' : Exact expiry limit history')
    (hsame : history.map (fun e => (e.key, e.time)) = history'.map fun e => (e.key, e.time)) :
    history = history' := by
  induction history using List.reverseRecOn generalizing history' with
  | nil => exact (List.map_eq_nil_iff.mp hsame.symm).symm
  | append_singleton history entry ih =>
      rcases List.eq_nil_or_concat history' with rfl | ⟨history', entry', rfl⟩
      · simp at hsame
      · rw [List.concat_eq_append] at h' hsame ⊢
        rw [List.map_append, List.map_append] at hsame
        obtain ⟨hinit, hlast⟩ := List.append_inj' hsame rfl
        obtain ⟨hhistory, hentry⟩ := (exact_concat_iff expiry limit).mp h
        obtain ⟨hhistory', hentry'⟩ := (exact_concat_iff expiry limit).mp h'
        obtain rfl := ih hhistory hhistory' hinit
        obtain ⟨hkey, htime⟩ := Prod.mk.inj (List.cons.inj hlast).1
        rcases entry with ⟨key, time, allowed⟩
        rcases entry' with ⟨key', time', allowed'⟩
        simp only at hkey htime hentry hentry'
        subst hkey htime
        rw [Bool.eq_iff_iff.mpr (hentry.trans hentry'.symm)]

theorem Exact.filter {history : List (Entry κ τ)} (h : Exact expiry limit history)
    (keep : Entry κ τ → Bool)
    (hkeep : ∀ entry, keep entry = true → ∀ earlier,
      counts expiry entry.key entry.time earlier = true → keep earlier = true ∨ earlier ∉ history) :
    Exact expiry limit (history.filter keep) := by
  induction history using List.reverseRecOn with
  | nil => exact exact_nil expiry limit
  | append_singleton history entry ih =>
      obtain ⟨hhistory, hentry⟩ := (exact_concat_iff expiry limit).mp h
      have hrest := ih hhistory fun other hother earlier hcounts =>
        (hkeep other hother earlier hcounts).imp_right fun hmem hin =>
          hmem (List.mem_append_left _ hin)
      rw [List.filter_append]
      cases hk : keep entry with
      | false => simpa [List.filter_cons, hk] using hrest
      | true =>
          rw [List.filter_cons_of_pos hk, List.filter_nil]
          refine (exact_concat_iff expiry limit).mpr ⟨hrest, ?_⟩
          rw [hentry, List.countP_filter]
          have hcount : history.countP (counts expiry entry.key entry.time) =
              history.countP fun earlier =>
                counts expiry entry.key entry.time earlier && keep earlier := by
            apply List.countP_congr
            intro earlier hmem
            rw [Bool.and_eq_true]
            constructor
            · intro hcounts
              refine ⟨hcounts, (hkeep entry hk earlier hcounts).resolve_right ?_⟩
              exact fun hnot => hnot (List.mem_append_left _ hmem)
            · exact And.left
          rw [hcount]

/-- What was not allowed has no bearing on the other answers. -/
theorem Exact.erase_denied {before after : List (Entry κ τ)} {entry : Entry κ τ}
    (h : Exact expiry limit (before ++ entry :: after)) (hdenied : entry.allowed = false) :
    Exact expiry limit (before ++ after) := by
  induction after using List.reverseRecOn with
  | nil =>
      rw [List.append_nil]
      exact ((exact_concat_iff expiry limit).mp h).1
  | append_singleton after last ih =>
      rw [← List.cons_append, ← List.append_assoc] at h
      obtain ⟨hinit, hlast⟩ := (exact_concat_iff expiry limit).mp h
      rw [← List.append_assoc]
      refine (exact_concat_iff expiry limit).mpr ⟨ih hinit, ?_⟩
      rw [hlast, List.countP_append, List.countP_cons_of_neg, List.countP_append]
      simp [counts, hdenied]

/-- One key's attempts are answered as if there were no others. -/
theorem Exact.filter_key {history : List (Entry κ τ)} (h : Exact expiry limit history)
    (key : κ) : Exact expiry limit (history.filter fun entry => decide (entry.key = key)) := by
  apply h.filter
  intro entry hentry earlier hcounts
  simp only [counts, Bool.and_eq_true, decide_eq_true_eq] at hcounts hentry ⊢
  exact .inl (hcounts.1.2.trans hentry)

end History

section Span

variable {κ τ : Type*} [DecidableEq κ] [LinearOrder τ] {expiry : Expiry τ} {limit : Nat}

/-- The allowed entries of a key from `start` on. -/
def allowedFrom (key : κ) (start : τ) (entry : Entry κ τ) : Bool :=
  entry.allowed && decide (entry.key = key) && decide (start ≤ entry.time)

theorem Exact.countP_span_le {history : List (Entry κ τ)} (h : Exact expiry limit history)
    (key : κ) {start stop : τ} (hspan : expiry.past stop start = false) :
    (history.filter fun entry => decide (entry.time ≤ stop)).countP (allowedFrom key start) ≤
      limit := by
  induction history using List.reverseRecOn with
  | nil => simp
  | append_singleton history entry ih =>
      obtain ⟨hhistory, hentry⟩ := (exact_concat_iff expiry limit).mp h
      have hrest := ih hhistory
      rw [List.filter_append, List.countP_append]
      by_cases hstop : entry.time ≤ stop
      · rw [List.filter_cons_of_pos (by simpa using hstop), List.filter_nil, List.countP_singleton]
        split_ifs with hcounted
        · -- whatever the span has had so far counts against this entry
          simp only [allowedFrom, Bool.and_eq_true, decide_eq_true_eq] at hcounted
          obtain ⟨⟨hallowed, hkey⟩, hstart⟩ := hcounted
          have hfew := hentry.mp hallowed
          have hle : (history.filter fun entry => decide (entry.time ≤ stop)).countP
              (allowedFrom key start) ≤ history.countP (counts expiry entry.key entry.time) := by
            rw [List.countP_filter]
            apply List.countP_mono_left
            intro earlier _ hearlier
            simp only [allowedFrom, Bool.and_eq_true, decide_eq_true_eq] at hearlier
            obtain ⟨⟨⟨hallowed', hkey'⟩, hstart'⟩, -⟩ := hearlier
            have hpast : expiry.past entry.time earlier.time = false := by
              by_contra hpast
              rw [Bool.not_eq_false] at hpast
              have hpast' := expiry.past_of_le hstart' (expiry.past_mono hstop hpast)
              exact Bool.false_ne_true (hspan.symm.trans hpast')
            simp [counts, hallowed', hkey', hkey, hpast]
          omega
        · exact hrest
      · rw [List.filter_cons_of_neg (by simpa using hstop), List.filter_nil, List.countP_nil]
        exact hrest

end Span

section Log

variable {τ : Type*} [LinearOrder τ] (expiry : Expiry τ) (limit : Nat)

/-- The log without the times at its front that are past. -/
def prune (now : τ) (log : List τ) : List τ := log.dropWhile (expiry.past now)

/-- The answer to an attempt, and the log after it. -/
def attempt (now : τ) (log : List τ) : Bool × List τ :=
  let log := prune expiry now log
  if limit ≤ log.length then (false, log) else (true, log ++ [now])

/-- At `now` and later the log stands for all the times of `full`: it is in order, and what it
has lost is past. -/
structure Represents (now : τ) (log full : List τ) : Prop where
  sorted : log.Pairwise (· ≤ ·)
  le_now : ∀ time ∈ log, time ≤ now
  split : ∃ lost, full = lost ++ log ∧ ∀ time ∈ lost, expiry.past now time = true

variable {expiry limit}

theorem Represents.nil (now : τ) : Represents expiry now [] [] :=
  ⟨.nil, by simp, [], rfl, by simp⟩

theorem Represents.later {now later : τ} {log full : List τ}
    (h : Represents expiry now log full) (hle : now ≤ later) :
    Represents expiry later log full := by
  obtain ⟨lost, heq, hlost⟩ := h.split
  exact ⟨h.sorted, fun time htime => le_trans (h.le_now time htime) hle, lost, heq,
    fun time htime => expiry.past_mono hle (hlost time htime)⟩

theorem Represents.prune {now : τ} {log full : List τ} (h : Represents expiry now log full) :
    Represents expiry now (prune expiry now log) full := by
  obtain ⟨lost, heq, hlost⟩ := h.split
  have hsuffix : SlidingWindow.prune expiry now log <:+ log := List.dropWhile_suffix _
  refine ⟨h.sorted.sublist hsuffix.sublist, fun time htime => h.le_now time (hsuffix.mem htime),
    lost ++ log.takeWhile (expiry.past now), ?_, ?_⟩
  · rw [heq, List.append_assoc, SlidingWindow.prune, List.takeWhile_append_dropWhile]
  · intro time htime
    rcases List.mem_append.mp htime with htime | htime
    · exact hlost time htime
    · exact List.mem_takeWhile_imp htime

theorem Represents.push {now : τ} {log full : List τ} (h : Represents expiry now log full) :
    Represents expiry now (log ++ [now]) (full ++ [now]) := by
  obtain ⟨lost, heq, hlost⟩ := h.split
  refine ⟨?_, ?_, lost, by rw [heq, List.append_assoc], hlost⟩
  · refine List.pairwise_append.mpr ⟨h.sorted, List.pairwise_singleton _ _, ?_⟩
    intro time htime now' hnow'
    rw [List.mem_singleton.mp hnow']
    exact h.le_now time htime
  · intro time htime
    rcases List.mem_append.mp htime with htime | htime
    · exact h.le_now time htime
    · exact le_of_eq (List.mem_singleton.mp htime)

theorem length_prune_of_sorted {now : τ} {log : List τ} (hsorted : log.Pairwise (· ≤ ·)) :
    (prune expiry now log).length = log.countP fun time => !expiry.past now time := by
  induction log with
  | nil => rfl
  | cons time log ih =>
      obtain ⟨hle, hsorted⟩ := List.pairwise_cons.mp hsorted
      cases hpast : expiry.past now time with
      | true =>
          rw [prune, List.dropWhile_cons_of_pos hpast, List.countP_cons_of_neg (by simp [hpast])]
          exact ih hsorted
      | false =>
          rw [prune, List.dropWhile_cons_of_neg (by simp [hpast]), eq_comm,
            List.countP_eq_length]
          intro other hother
          rcases List.mem_cons.mp hother with rfl | hother
          · simp [hpast]
          · rw [Bool.not_eq_true', ← Bool.not_eq_true]
            intro hpast'
            have hpast'' := expiry.past_of_le (hle other hother) hpast'
            exact Bool.false_ne_true (hpast.symm.trans hpast'')

theorem Represents.length_prune {now : τ} {log full : List τ}
    (h : Represents expiry now log full) :
    (SlidingWindow.prune expiry now log).length =
      full.countP fun time => !expiry.past now time := by
  obtain ⟨lost, rfl, hlost⟩ := h.split
  have hnone : lost.countP (fun time => !expiry.past now time) = 0 := by
    apply List.countP_eq_zero.mpr
    intro time htime
    simp [hlost time htime]
  rw [length_prune_of_sorted h.sorted, List.countP_append, hnone, Nat.zero_add]

variable (limit) in
/-- An attempt on the log answers by the full list of times, and stands for it afterwards. -/
theorem Represents.attempt {now : τ} {log full : List τ}
    (h : Represents expiry now log full) :
    ((attempt expiry limit now log).1 = true ↔
        full.countP (fun time => !expiry.past now time) < limit) ∧
      Represents expiry now (attempt expiry limit now log).2
        (full ++ if (attempt expiry limit now log).1 then [now] else []) := by
  rw [← h.length_prune]
  by_cases hfull : limit ≤ (SlidingWindow.prune expiry now log).length
  · have hattempt : SlidingWindow.attempt expiry limit now log =
        (false, SlidingWindow.prune expiry now log) := if_pos hfull
    rw [hattempt]
    refine ⟨by simpa using hfull, ?_⟩
    simpa using h.prune
  · have hattempt : SlidingWindow.attempt expiry limit now log =
        (true, SlidingWindow.prune expiry now log ++ [now]) := if_neg hfull
    rw [hattempt]
    exact ⟨by simpa using hfull, h.prune.push⟩

end Log

end SideWire.SlidingWindow
