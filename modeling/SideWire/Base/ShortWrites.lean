import SideWire.Base.ByteEmission

/-!
How a write goes call by call: each call but the last takes at least one byte, and what has
been taken is a first part of what is to be written.
-/

namespace SideWire.ByteLink

open SideWire.ByteString

variable {ε α β : Type}

/-- The first calls of the writer take at least one byte each. -/
def Link.Answered (link : Link) (calls : Nat) : Prop :=
  ∀ n < calls, ∃ k, link.answers n = some (k + 1)

/-- The connection after some calls that have taken `bytes`. -/
def Link.after (link : Link) (bytes : Bytes) (calls : Nat) : Link :=
  { link with outgoing := link.outgoing ++ bytes, answers := fun n => link.answers (n + calls) }

/-- How a call ends a write: it fails, or takes nothing. -/
inductive Link.Stops (link : Link) (call : Nat) : IoError → Prop
  | fails (h : link.answers call = none) : link.Stops call .broken
  | takesNothing (h : link.answers call = some 0) : link.Stops call .writeZero

/-- How a write of `bytes` goes: every call takes some of them until it is done, or one stops
it after a part of them. -/
inductive Course (link : Link) (bytes : Bytes) (a : α) : Except (Failure ε) α × Link → Prop
  | whole {calls : Nat} (hcalls : calls ≤ bytes.length) (hanswered : link.Answered calls) :
      Course link bytes a (.ok a, link.after bytes calls)
  | cut {calls : Nat} {part : Bytes} {error : IoError} (hcalls : calls < bytes.length)
      (hanswered : link.Answered calls) (hpart : part <+: bytes)
      (hstops : link.Stops calls error) :
      Course link bytes a (.error (.io error), link.after part (calls + 1))

section Links

variable {link : Link} {xs ys : Bytes} {m n : Nat}

theorem Link.after_zero (link : Link) : link.after [] 0 = link := by
  simp [Link.after]

theorem Link.after_after (link : Link) (xs ys : Bytes) (m n : Nat) :
    (link.after xs m).after ys n = link.after (xs ++ ys) (m + n) := by
  simp only [Link.after, List.append_assoc, Link.mk.injEq, true_and]
  funext k
  rw [Nat.add_assoc, Nat.add_comm n m]

theorem Link.answered_zero (link : Link) : link.Answered 0 := nofun

theorem Link.Answered.add (hm : link.Answered m) (hn : (link.after xs m).Answered n) :
    link.Answered (m + n) := by
  intro k hk
  by_cases hfirst : k < m
  · exact hm k hfirst
  · obtain ⟨taken, htaken⟩ := hn (k - m) (by omega)
    have hplace : k - m + m = k := by omega
    exact ⟨taken, hplace ▸ htaken⟩

theorem Link.Stops.add {error : IoError} (h : (link.after xs m).Stops n error) :
    link.Stops (m + n) error := by
  rw [Nat.add_comm]
  cases h with
  | fails h => exact .fails h
  | takesNothing h => exact .takesNothing h

end Links

section Rules

variable {link : Link} {xs ys : Bytes} {a : α} {b : β}

theorem Course.pure (link : Link) (a : α) :
    Course link [] a (outcome (pure a : Io ε α) link) := by
  have h : Course link [] a ((.ok a : Except (Failure ε) α), link.after [] 0) :=
    .whole (Nat.zero_le _) link.answered_zero
  rwa [link.after_zero] at h

theorem Course.append {calls : Nat} {result : Except (Failure ε) α × Link}
    (hcalls : calls ≤ xs.length) (hanswered : link.Answered calls)
    (hrest : Course (link.after xs calls) ys a result) : Course link (xs ++ ys) a result := by
  cases hrest with
  | whole hmore hmore' =>
      rw [link.after_after]
      refine .whole ?_ (hanswered.add hmore')
      rw [List.length_append]
      omega
  | cut hmore hmore' hpart hstops =>
      rw [link.after_after, ← Nat.add_assoc]
      refine .cut ?_ (hanswered.add hmore') ((List.prefix_append_right_inj xs).mpr hpart)
        hstops.add
      rw [List.length_append]
      omega

theorem Course.bind {program : Io ε α} {next : α → Io ε β}
    (hfirst : Course link xs a (outcome program link))
    (hnext : ∀ middle : Link, Course middle ys b (outcome (next a) middle)) :
    Course link (xs ++ ys) b (outcome (program >>= next) link) := by
  rw [outcome_bind]
  generalize outcome program link = result at hfirst
  cases hfirst with
  | whole hcalls hanswered => exact Course.append hcalls hanswered (hnext _)
  | cut hcalls hanswered hpart hstops =>
      refine .cut ?_ hanswered (hpart.trans (List.prefix_append xs ys)) hstops
      rw [List.length_append]
      omega

theorem outcome_call {first second : Bytes} (hoffered : 0 < (first ++ second).length)
    (next : Nat → Io ε α) (link : Link) :
    (∃ error, link.Stops 0 error ∧
      outcome (do
        let written ← writeVectored first second
        if _hzero : written = 0 then throw (.io .writeZero) else next written) link =
          (.error (.io error), link.after [] 1)) ∨
    ∃ written, 0 < written ∧ written ≤ (first ++ second).length ∧ link.Answered 1 ∧
      outcome (do
        let written ← writeVectored first second
        if _hzero : written = 0 then throw (.io .writeZero) else next written) link =
          outcome (next written) (link.after ((first ++ second).take written) 1) := by
  rw [outcome_bind]
  cases htaken : link.answers 0 with
  | none =>
      refine .inl ⟨_, .fails htaken, ?_⟩
      rw [outcome_writeVectored_of_none htaken]
      simp only [Link.after, List.append_nil]
  | some taken =>
      rw [outcome_writeVectored_of_some htaken]
      cases taken with
      | zero =>
          refine .inl ⟨_, .takesNothing htaken, ?_⟩
          simp only [Nat.zero_min, dite_true, List.take_zero]
          rfl
      | succ taken =>
          have hpos : min (taken + 1) (first ++ second).length ≠ 0 := by omega
          refine .inr ⟨min (taken + 1) (first ++ second).length, by omega, by omega, ?_, ?_⟩
          · intro n hn
            obtain rfl : n = 0 := by omega
            exact ⟨taken, htaken⟩
          · dsimp only
            rw [← List.take_eq_take_min, dif_neg hpos]
            rfl

theorem Course.stopped {bytes : Bytes} {error : IoError} (hpos : 0 < bytes.length)
    (hstops : link.Stops 0 error) :
    Course link bytes a ((.error (.io error) : Except (Failure ε) α), link.after [] 1) :=
  .cut hpos link.answered_zero List.nil_prefix hstops

theorem course_writeAll (bytes : Bytes) (link : Link) :
    Course link bytes () (outcome (writeAll bytes : Io ε Unit) link) := by
  induction hlen : bytes.length using Nat.strong_induction_on generalizing bytes link with
  | _ len ih =>
      rw [writeAll]
      split_ifs with hempty
      · rw [List.length_eq_zero_iff.mp hempty]
        exact .pure link ()
      · have hoffered : 0 < (bytes ++ []).length := by
          rw [List.append_nil]
          omega
        rcases outcome_call hoffered (fun written => (writeAll (bytes.drop written) : Io ε Unit))
          link with ⟨error, hstops, hcall⟩ | ⟨written, hpos, hle, hanswered, hcall⟩
        · rw [hcall]
          exact .stopped (by omega) hstops
        · rw [List.append_nil] at hle hcall
          have htaken : (bytes.take written).length = written := by
            rw [List.length_take]
            omega
          have hrest := ih _ (by rw [List.length_drop]; omega) (bytes.drop written)
            (link.after (bytes.take written) 1) rfl
          have hboth := Course.append (by omega) hanswered hrest
          rwa [List.take_append_drop, ← hcall] at hboth

theorem course_writeHeader {header body : Bytes} {headerOffset : Nat}
    (hoffset : headerOffset ≤ header.length) (link : Link) :
    ∃ bodyOffset, bodyOffset ≤ body.length ∧
      Course link (header.drop headerOffset ++ body.take bodyOffset) bodyOffset
        (outcome (writeHeader header body headerOffset 0 : Io ε Nat) link) := by
  induction hleft : header.length - headerOffset using Nat.strong_induction_on
    generalizing headerOffset link with
  | _ left ih =>
      rw [writeHeader]
      split_ifs with hmore
      · have hoffered : 0 < (header.drop headerOffset ++ body.drop 0).length := by
          rw [List.length_append, List.length_drop]
          omega
        rcases outcome_call hoffered (fun written =>
            if written < header.length - headerOffset then
              (writeHeader header body (headerOffset + written) 0 : Io ε Nat)
            else
              writeHeader header body header.length
                (0 + (written - (header.length - headerOffset)))) link with
          ⟨error, hstops, hcall⟩ | ⟨written, hpos, hle, hanswered, hcall⟩
        · refine ⟨0, Nat.zero_le _, ?_⟩
          rw [hcall]
          refine .stopped ?_ hstops
          rw [List.length_append, List.length_drop]
          omega
        · rw [List.drop_zero, List.length_append, List.length_drop] at hle
          rw [List.drop_zero] at hcall
          by_cases hshort : written < header.length - headerOffset
          · have htaken : ((header.drop headerOffset).take written).length = written := by
              rw [List.length_take, List.length_drop]
              omega
            rw [if_pos hshort, List.take_append_of_le_length
              (by rw [List.length_drop]; omega)] at hcall
            obtain ⟨bodyOffset, hbody, hrest⟩ := ih _ (by omega)
              (show headerOffset + written ≤ header.length by omega)
              (link.after ((header.drop headerOffset).take written) 1) rfl
            refine ⟨bodyOffset, hbody, ?_⟩
            have hboth := Course.append (by omega) hanswered hrest
            rwa [← List.append_assoc, ← List.drop_drop, List.take_append_drop, ← hcall] at hboth
          · have hheader : (header.drop headerOffset).length = header.length - headerOffset :=
              List.length_drop
            rw [if_neg hshort, writeHeader, dif_neg (Nat.lt_irrefl _), List.take_append, hheader,
              List.take_of_length_le (by omega), Nat.zero_add] at hcall
            refine ⟨written - (header.length - headerOffset), by omega, ?_⟩
            have hboth := Course.append (by rw [List.length_append]; omega) hanswered
              (Course.pure (ε := ε) (link.after (header.drop headerOffset ++
                body.take (written - (header.length - headerOffset))) 1)
                (written - (header.length - headerOffset)))
            rwa [List.append_nil, ← hcall] at hboth
      · refine ⟨0, Nat.zero_le _, ?_⟩
        rw [List.drop_of_length_le (by omega)]
        exact .pure link 0

theorem course_writeParts (header body : Bytes) (link : Link) :
    Course link (header ++ body) () (outcome (writeParts header body : Io ε Unit) link) := by
  obtain ⟨bodyOffset, hbody, hcourse⟩ :=
    @course_writeHeader ε header body 0 (Nat.zero_le _) link
  have hrest : ∀ middle : Link, Course middle (body.drop bodyOffset) ()
      (outcome (if bodyOffset < body.length then writeAll (body.drop bodyOffset)
        else pure () : Io ε Unit) middle) := by
    intro middle
    split_ifs with hshort
    · exact course_writeAll _ middle
    · rw [List.drop_of_length_le (by omega)]
      exact .pure middle ()
  have hboth : Course link (header.drop 0 ++ body.take bodyOffset ++ body.drop bodyOffset) ()
      (outcome (writeParts header body : Io ε Unit) link) := by
    rw [writeParts]
    exact hcourse.bind hrest
  rwa [List.drop_zero, List.append_assoc, List.take_append_drop] at hboth

end Rules

/-! The moments of a write: the connection when the writer has answered so many calls. -/

def Link.upTo (link : Link) (calls : Nat) : Link :=
  { link with answers := fun n => if n < calls then link.answers n else none }

/-- What is on the writer after so many of its answers. -/
def written (program : Io ε α) (link : Link) (calls : Nat) : Bytes :=
  (outcome program (link.upTo calls)).2.outgoing

section Moments

variable {program : Io ε α} {link : Link} {bytes : Bytes} {a : α}

theorem Link.extends_upTo (link : Link) (calls : Nat) : (link.upTo calls).Extends link := by
  refine ⟨rfl, rfl, ?_⟩
  intro n taken h
  exact (Option.ite_none_right_eq_some.mp h).2

theorem Course.outgoing {result : Except (Failure ε) α × Link} (h : Course link bytes a result) :
    ∃ part, part <+: bytes ∧ result.2.outgoing = link.outgoing ++ part := by
  cases h with
  | whole => exact ⟨bytes, List.prefix_rfl, rfl⟩
  | cut _ _ hpart => exact ⟨_, hpart, rfl⟩

theorem Resumes.written_prefix (h : Resumes program) (link : Link) (calls : Nat) :
    written program link calls <+: (outcome program link).2.outgoing := by
  rcases h.resumes (link.extends_upTo calls) with ⟨_, _, hpart⟩ | ⟨_, hrest⟩
  · exact hpart
  · exact hrest.outgoing ▸ List.prefix_rfl

end Moments

end SideWire.ByteLink
