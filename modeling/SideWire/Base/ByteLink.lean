import SideWire.Base.ByteString

/-!
Fallible programs at one end of a byte connection. The underlying writer may take
any part of what it is offered, the underlying reader hands out the bytes of the
other side in order.
-/

namespace SideWire.ByteLink

open SideWire.ByteString

/-- One end of a connection: the bytes still to be read up to the end of the
stream, the bytes written so far, and how many bytes the writer takes in each
call to come, `none` where the call fails. -/
structure Link where
  incoming : Bytes
  outgoing : Bytes
  answers : Nat → Option Nat

inductive IoError
  | unexpectedEof
  | writeZero
  | broken
  deriving DecidableEq

/-- An error of the connection, or one that the program raises itself. -/
inductive Failure (ε : Type*)
  | io (error : IoError)
  | raised (error : ε)
  deriving DecidableEq

abbrev Io (ε α : Type) := ExceptT (Failure ε) (StateM Link) α

variable {ε α β : Type}

/-- What a program comes to, and the connection after it. -/
def outcome (program : Io ε α) (link : Link) : Except (Failure ε) α × Link :=
  program.run.run link

/-- A run of a program that returns. -/
def Returns (program : Io ε α) (link : Link) (value : α) (link' : Link) : Prop :=
  outcome program link = (.ok value, link')

/-- A run of a program that fails. -/
def Fails (program : Io ε α) (link : Link) (error : Failure ε) (link' : Link) : Prop :=
  outcome program link = (.error error, link')

theorem Returns.unique {program : Io ε α} {link link₁ link₂ : Link} {a b : α}
    (ha : Returns program link a link₁) (hb : Returns program link b link₂) :
    a = b ∧ link₁ = link₂ := by
  rw [Returns, ha] at hb
  simpa using hb

theorem outcome_pure (a : α) (link : Link) :
    outcome (pure a : Io ε α) link = (.ok a, link) := rfl

theorem outcome_throw (error : Failure ε) (link : Link) :
    outcome (throw error : Io ε α) link = (.error error, link) := rfl

theorem outcome_bind (program : Io ε α) (next : α → Io ε β) (link : Link) :
    outcome (program >>= next) link =
      match outcome program link with
      | (.ok a, middle) => outcome (next a) middle
      | (.error error, middle) => (.error error, middle) := by
  change (StateT.bind program.run (ExceptT.bindCont next)) link = _
  simp only [StateT.bind, bind, outcome, StateT.run, ExceptT.run]
  rcases program link with ⟨_ | a, middle⟩ <;> rfl

@[simp] theorem returns_pure {a b : α} {link link' : Link} :
    Returns (pure a : Io ε α) link b link' ↔ b = a ∧ link' = link := by
  rw [Returns, outcome_pure]
  simp [eq_comm]

@[simp] theorem not_fails_pure {a : α} {error : Failure ε} {link link' : Link} :
    ¬ Fails (pure a : Io ε α) link error link' := by
  rw [Fails, outcome_pure]
  simp

@[simp] theorem not_returns_throw {error : Failure ε} {a : α} {link link' : Link} :
    ¬ Returns (throw error : Io ε α) link a link' := by
  rw [Returns, outcome_throw]
  simp

@[simp] theorem fails_throw {error error' : Failure ε} {link link' : Link} :
    Fails (throw error : Io ε α) link error' link' ↔ error' = error ∧ link' = link := by
  rw [Fails, outcome_throw]
  simp [eq_comm]

@[simp] theorem returns_bind {program : Io ε α} {next : α → Io ε β} {link link' : Link}
    {b : β} :
    Returns (program >>= next) link b link' ↔
      ∃ a middle, Returns program link a middle ∧ Returns (next a) middle b link' := by
  unfold Returns
  rw [outcome_bind]
  rcases outcome program link with ⟨error | a, middle⟩
  · simp
  · constructor
    · intro h
      exact ⟨a, middle, rfl, h⟩
    · rintro ⟨_, _, heq, h⟩
      obtain ⟨⟨rfl⟩, rfl⟩ := Prod.mk.inj heq
      exact h

theorem fails_bind {program : Io ε α} {next : α → Io ε β} {link link' : Link}
    {error : Failure ε} :
    Fails (program >>= next) link error link' ↔
      Fails program link error link' ∨
        ∃ a middle, Returns program link a middle ∧ Fails (next a) middle error link' := by
  unfold Fails Returns
  rw [outcome_bind]
  rcases outcome program link with ⟨error | a, middle⟩
  · simp
  · constructor
    · intro h
      exact .inr ⟨a, middle, rfl, h⟩
    · rintro (heq | ⟨_, _, heq, h⟩)
      · simp at heq
      · obtain ⟨⟨rfl⟩, rfl⟩ := Prod.mk.inj heq
        exact h

/-- Computes with the result of a fallible function, as `?` does. -/
def attempt (result : Except ε α) : Io ε α :=
  match result with
  | .ok a => pure a
  | .error error => throw (.raised error)

@[simp] theorem returns_attempt {result : Except ε α} {a : α} {link link' : Link} :
    Returns (attempt result) link a link' ↔ result = .ok a ∧ link' = link := by
  cases result with
  | ok b => simp [attempt, eq_comm]
  | error error => simp [attempt]

@[simp] theorem fails_attempt {result : Except ε α} {error : Failure ε}
    {link link' : Link} :
    Fails (attempt result) link error link' ↔
      (∃ raised, result = .error raised ∧ error = .raised raised) ∧ link' = link := by
  cases result with
  | ok b => simp [attempt]
  | error raised => simp [attempt, eq_comm]

def fail (error : ε) : Io ε α := throw (.raised error)

@[simp] theorem not_returns_fail {error : ε} {a : α} {link link' : Link} :
    ¬ Returns (fail error : Io ε α) link a link' := not_returns_throw

@[simp] theorem fails_fail {error : ε} {error' : Failure ε} {link link' : Link} :
    Fails (fail error : Io ε α) link error' link' ↔
      error' = .raised error ∧ link' = link := fails_throw

/-- `link'` is `link` after some writer calls that took `bytes` together. -/
def Wrote (bytes : Bytes) (link link' : Link) : Prop :=
  ∃ calls, link' =
    { link with outgoing := link.outgoing ++ bytes, answers := fun n => link.answers (n + calls) }

/-- A writer that never fails and takes at least one byte in each call. -/
def Link.Accepting (link : Link) : Prop := ∀ n, ∃ k, link.answers n = some (k + 1)

theorem Wrote.refl (link : Link) : Wrote [] link link := ⟨0, by simp⟩

theorem Wrote.trans {xs ys : Bytes} {link middle link' : Link} (hxs : Wrote xs link middle)
    (hys : Wrote ys middle link') : Wrote (xs ++ ys) link link' := by
  obtain ⟨m, rfl⟩ := hxs
  obtain ⟨n, rfl⟩ := hys
  exact ⟨n + m, by simp [Nat.add_assoc]⟩

theorem Wrote.incoming {bytes : Bytes} {link link' : Link} (h : Wrote bytes link link') :
    link'.incoming = link.incoming := by
  obtain ⟨_, rfl⟩ := h
  rfl

theorem Wrote.outgoing {bytes : Bytes} {link link' : Link} (h : Wrote bytes link link') :
    link'.outgoing = link.outgoing ++ bytes := by
  obtain ⟨_, rfl⟩ := h
  rfl

theorem Wrote.accepting {bytes : Bytes} {link link' : Link} (h : Wrote bytes link link')
    (haccepts : link.Accepting) : link'.Accepting := by
  obtain ⟨calls, rfl⟩ := h
  intro n
  exact haccepts (n + calls)

/-- A program that writes `bytes`: where it returns, it returns `value` and has written
them all, where it fails the connection has failed after a part of them, and with an
accepting writer it returns. -/
structure Writes (program : Io ε α) (bytes : Bytes) (value : α) : Prop where
  of_returns : ∀ {link a link'}, Returns program link a link' →
    a = value ∧ Wrote bytes link link'
  of_fails : ∀ {link error link'}, Fails program link error link' →
    (∃ io, error = .io io) ∧ ∃ part, part <+: bytes ∧ Wrote part link link'
  returns : ∀ {link : Link}, link.Accepting → ∃ link', Returns program link value link'

theorem Writes.pure (a : α) : Writes (pure a : Io ε α) [] a where
  of_returns h := by
    obtain ⟨rfl, rfl⟩ := returns_pure.mp h
    exact ⟨rfl, .refl _⟩
  of_fails h := (not_fails_pure h).elim
  returns {link} _ := ⟨link, returns_pure.mpr ⟨rfl, rfl⟩⟩

theorem Writes.bind {program : Io ε α} {next : α → Io ε β} {xs ys : Bytes} {a : α} {b : β}
    (hfirst : Writes program xs a) (hnext : Writes (next a) ys b) :
    Writes (program >>= next) (xs ++ ys) b where
  of_returns h := by
    obtain ⟨a', middle, h₁, h₂⟩ := returns_bind.mp h
    obtain ⟨rfl, hwrote⟩ := hfirst.of_returns h₁
    obtain ⟨rfl, hmore⟩ := hnext.of_returns h₂
    exact ⟨rfl, hwrote.trans hmore⟩
  of_fails h := by
    rcases fails_bind.mp h with h | ⟨a', middle, h₁, h₂⟩
    · obtain ⟨hio, part, hpart, hwrote⟩ := hfirst.of_fails h
      exact ⟨hio, part, hpart.trans (List.prefix_append _ _), hwrote⟩
    · obtain ⟨rfl, hwrote⟩ := hfirst.of_returns h₁
      obtain ⟨hio, part, hpart, hmore⟩ := hnext.of_fails h₂
      exact ⟨hio, xs ++ part, (List.prefix_append_right_inj xs).mpr hpart,
        hwrote.trans hmore⟩
  returns haccepts := by
    obtain ⟨middle, h₁⟩ := hfirst.returns haccepts
    obtain ⟨link', h₂⟩ := hnext.returns ((hfirst.of_returns h₁).2.accepting haccepts)
    exact ⟨link', returns_bind.mpr ⟨a, middle, h₁, h₂⟩⟩

theorem writes_attempt {result : Except ε α} {a : α} (h : result = .ok a) :
    Writes (attempt result : Io ε α) [] a := by
  subst h
  exact .pure a

/-- One call of the writer with the concatenation of two buffers. -/
def writeVectored (first second : Bytes) : Io ε Nat :=
  ExceptT.mk fun link =>
    let rest := fun n => link.answers (n + 1)
    match link.answers 0 with
    | none => (.error (.io .broken), { link with answers := rest })
    | some taken =>
        (.ok (min taken (first ++ second).length),
          { link with
            outgoing := link.outgoing ++ (first ++ second).take taken
            answers := rest })

theorem outcome_writeVectored_of_none {first second : Bytes} {link : Link}
    (h : link.answers 0 = none) :
    outcome (writeVectored first second : Io ε Nat) link =
      (.error (.io .broken), { link with answers := fun n => link.answers (n + 1) }) := by
  change (match link.answers 0 with
    | none => _
    | some taken => _) = _
  rw [h]

theorem outcome_writeVectored_of_some {first second : Bytes} {link : Link} {taken : Nat}
    (h : link.answers 0 = some taken) :
    outcome (writeVectored first second : Io ε Nat) link =
      (.ok (min taken (first ++ second).length),
        { link with
          outgoing := link.outgoing ++ (first ++ second).take taken
          answers := fun n => link.answers (n + 1) }) := by
  change (match link.answers 0 with
    | none => _
    | some taken => _) = _
  rw [h]

theorem wrote_of_writeVectored {first second : Bytes} {link link' : Link} {written : Nat}
    (h : Returns (writeVectored first second : Io ε Nat) link written link') :
    written ≤ (first ++ second).length ∧
      Wrote ((first ++ second).take written) link link' := by
  cases htaken : link.answers 0 with
  | none => simp [Returns, outcome_writeVectored_of_none htaken] at h
  | some taken =>
      rw [Returns, outcome_writeVectored_of_some htaken] at h
      obtain ⟨⟨rfl⟩, rfl⟩ := Prod.mk.inj h
      exact ⟨Nat.min_le_right _ _, 1, by simp [List.take_eq_take_min]⟩

theorem broken_of_writeVectored {first second : Bytes} {link link' : Link}
    {error : Failure ε}
    (h : Fails (writeVectored first second : Io ε Nat) link error link') :
    error = .io .broken ∧ Wrote [] link link' := by
  cases htaken : link.answers 0 with
  | none =>
      rw [Fails, outcome_writeVectored_of_none htaken] at h
      obtain ⟨⟨rfl⟩, rfl⟩ := Prod.mk.inj h
      exact ⟨rfl, 1, by simp⟩
  | some taken => simp [Fails, outcome_writeVectored_of_some htaken] at h

theorem writeVectored_returns (first second : Bytes) {link : Link}
    (haccepts : link.Accepting) :
    ∃ written link', (0 < (first ++ second).length → 0 < written) ∧
      Returns (writeVectored first second : Io ε Nat) link written link' := by
  obtain ⟨k, hk⟩ := haccepts 0
  exact ⟨_, _, by omega, outcome_writeVectored_of_some hk⟩

/-- The whole of a buffer, in as many calls as it takes. -/
def writeAll (bytes : Bytes) : Io ε Unit :=
  if _hempty : bytes.length = 0 then pure ()
  else do
    let written ← writeVectored bytes []
    if _hzero : written = 0 then throw (.io .writeZero)
    else writeAll (bytes.drop written)
termination_by bytes.length
decreasing_by
  simp only [List.length_drop]
  omega

theorem writes_writeAll (bytes : Bytes) :
    Writes (writeAll bytes : Io ε Unit) bytes () := by
  induction hlen : bytes.length using Nat.strong_induction_on generalizing bytes with
  | _ len ih =>
      have hrest : ∀ written, bytes.length ≠ 0 → written ≠ 0 →
          Writes (writeAll (bytes.drop written) : Io ε Unit) (bytes.drop written) () := by
        intro written hpos hwritten
        apply ih (bytes.drop written).length
        · rw [List.length_drop]
          omega
        · rfl
      rw [writeAll]
      split_ifs with hempty
      · rw [List.length_eq_zero_iff.mp hempty]
        exact .pure ()
      · refine ⟨?_, ?_, ?_⟩
        · intro link a link' h
          obtain ⟨written, middle, h₁, h₂⟩ := returns_bind.mp h
          have hwrote := (wrote_of_writeVectored h₁).2
          split_ifs at h₂ with hzero
          · exact (not_returns_throw h₂).elim
          · have hboth := hwrote.trans ((hrest written hempty hzero).of_returns h₂).2
            simpa using hboth
        · intro link error link' h
          rcases fails_bind.mp h with h | ⟨written, middle, h₁, h₂⟩
          · obtain ⟨rfl, hwrote⟩ := broken_of_writeVectored h
            exact ⟨⟨_, rfl⟩, [], List.nil_prefix, hwrote⟩
          have hwrote := (wrote_of_writeVectored h₁).2
          rw [List.append_nil] at hwrote
          split_ifs at h₂ with hzero
          · obtain ⟨rfl, rfl⟩ := fails_throw.mp h₂
            exact ⟨⟨_, rfl⟩, _, List.take_prefix _ _, hwrote⟩
          · obtain ⟨hio, part, hpart, hmore⟩ := (hrest written hempty hzero).of_fails h₂
            refine ⟨hio, _, ?_, hwrote.trans hmore⟩
            have hboth := (List.prefix_append_right_inj (bytes.take written)).mpr hpart
            rwa [List.take_append_drop] at hboth
        · intro link haccepts
          obtain ⟨written, middle, hpos, h₁⟩ := writeVectored_returns bytes [] haccepts
          have hzero : written ≠ 0 := by
            have := hpos (by simpa using Nat.pos_of_ne_zero hempty)
            omega
          obtain ⟨link', h₂⟩ := (hrest written hempty hzero).returns
            ((wrote_of_writeVectored h₁).2.accepting haccepts)
          refine ⟨link', returns_bind.mpr ⟨written, middle, h₁, ?_⟩⟩
          rw [dif_neg hzero]
          exact h₂

/-- Waits until the writer has passed on what it took. -/
def flush : Io ε Unit := do
  let _ ← writeVectored [] []
  pure ()

theorem writes_flush : Writes (flush : Io ε Unit) [] () where
  of_returns h := by
    obtain ⟨_, _, h₁, h₂⟩ := returns_bind.mp h
    obtain ⟨_, rfl⟩ := returns_pure.mp h₂
    simpa using (wrote_of_writeVectored h₁).2
  of_fails h := by
    rcases fails_bind.mp h with h | ⟨_, _, _, h₂⟩
    · obtain ⟨rfl, hwrote⟩ := broken_of_writeVectored h
      exact ⟨⟨_, rfl⟩, [], List.prefix_rfl, hwrote⟩
    · exact (not_fails_pure h₂).elim
  returns haccepts := by
    obtain ⟨written, link', _, h⟩ := writeVectored_returns [] [] haccepts
    exact ⟨link', returns_bind.mpr ⟨written, link', h, returns_pure.mpr ⟨rfl, rfl⟩⟩⟩

/-- Offers what is left of a header together with what is left of a body until the
header is through, and returns how much of the body went with it. -/
def writeHeader (header body : Bytes) (headerOffset bodyOffset : Nat) : Io ε Nat :=
  if _hleft : headerOffset < header.length then do
    let written ← writeVectored (header.drop headerOffset) (body.drop bodyOffset)
    if _hzero : written = 0 then throw (.io .writeZero)
    else if written < header.length - headerOffset then
      writeHeader header body (headerOffset + written) bodyOffset
    else
      writeHeader header body header.length
        (bodyOffset + (written - (header.length - headerOffset)))
  else pure bodyOffset
termination_by header.length - headerOffset

/-- A header and a body, in vectored calls while any of the header is left. -/
def writeParts (header body : Bytes) : Io ε Unit := do
  let bodyOffset ← writeHeader header body 0 0
  if bodyOffset < body.length then writeAll (body.drop bodyOffset)
  else pure ()

theorem wrote_of_writeHeader {header body : Bytes} {headerOffset : Nat}
    {link link' : Link} {bodyOffset : Nat}
    (h : Returns (writeHeader header body headerOffset 0 : Io ε Nat) link bodyOffset link') :
    bodyOffset ≤ body.length ∧
      Wrote (header.drop headerOffset ++ body.take bodyOffset) link link' := by
  induction hleft : header.length - headerOffset using Nat.strong_induction_on
    generalizing headerOffset link with
  | _ left ih =>
      rw [writeHeader] at h
      split_ifs at h with hoffset
      · obtain ⟨written, middle, h₁, h₂⟩ := returns_bind.mp h
        obtain ⟨hle, hwrote⟩ := wrote_of_writeVectored h₁
        simp only [List.drop_zero, List.length_append, List.length_drop] at hle hwrote
        split_ifs at h₂ with hzero hshort
        · exact (not_returns_throw h₂).elim
        · obtain ⟨hbody, hmore⟩ := ih _ (by omega) h₂ rfl
          refine ⟨hbody, ?_⟩
          have hboth := hwrote.trans hmore
          rw [List.take_append_of_le_length (by rw [List.length_drop]; omega)] at hboth
          rwa [← List.drop_drop, ← List.append_assoc, List.take_append_drop] at hboth
        · rw [writeHeader, dif_neg (Nat.lt_irrefl _)] at h₂
          obtain ⟨rfl, rfl⟩ := returns_pure.mp h₂
          refine ⟨by omega, ?_⟩
          rw [List.take_append, List.take_of_length_le (by rw [List.length_drop]; omega),
            List.length_drop] at hwrote
          rwa [Nat.zero_add]
      · obtain ⟨rfl, rfl⟩ := returns_pure.mp h
        refine ⟨Nat.zero_le _, ?_⟩
        rw [List.drop_of_length_le (by omega)]
        exact .refl _

theorem fails_writeHeader {header body : Bytes} {headerOffset : Nat}
    {link link' : Link} {error : Failure ε}
    (h : Fails (writeHeader header body headerOffset 0 : Io ε Nat) link error link') :
    (∃ io, error = .io io) ∧
      ∃ part, part <+: header.drop headerOffset ++ body ∧ Wrote part link link' := by
  induction hleft : header.length - headerOffset using Nat.strong_induction_on
    generalizing headerOffset link with
  | _ left ih =>
      rw [writeHeader] at h
      split_ifs at h with hoffset
      · rcases fails_bind.mp h with h | ⟨written, middle, h₁, h₂⟩
        · obtain ⟨rfl, hwrote⟩ := broken_of_writeVectored h
          exact ⟨⟨_, rfl⟩, [], List.nil_prefix, hwrote⟩
        obtain ⟨hle, hwrote⟩ := wrote_of_writeVectored h₁
        simp only [List.drop_zero, List.length_append, List.length_drop] at hle hwrote
        split_ifs at h₂ with hzero hshort
        · obtain ⟨rfl, rfl⟩ := fails_throw.mp h₂
          exact ⟨⟨_, rfl⟩, _, List.take_prefix _ _, hwrote⟩
        · obtain ⟨hio, part, hpart, hmore⟩ := ih _ (by omega) h₂ rfl
          refine ⟨hio, _, ?_, hwrote.trans hmore⟩
          rw [List.take_append_of_le_length (by rw [List.length_drop]; omega)]
          have hboth := (List.prefix_append_right_inj
            ((header.drop headerOffset).take written)).mpr hpart
          rwa [← List.drop_drop, ← List.append_assoc, List.take_append_drop] at hboth
        · rw [writeHeader, dif_neg (Nat.lt_irrefl _)] at h₂
          exact (not_fails_pure h₂).elim
      · exact (not_fails_pure h).elim

theorem writeHeader_returns (header body : Bytes) (headerOffset : Nat) {link : Link}
    (haccepts : link.Accepting) :
    ∃ bodyOffset link',
      Returns (writeHeader header body headerOffset 0 : Io ε Nat) link bodyOffset link' := by
  induction hleft : header.length - headerOffset using Nat.strong_induction_on
    generalizing headerOffset link with
  | _ left ih =>
      rw [writeHeader]
      split_ifs with hoffset
      · obtain ⟨written, middle, hpos, h₁⟩ := writeVectored_returns
          (header.drop headerOffset) (body.drop 0) haccepts
        have hzero : written ≠ 0 := by
          have := hpos (by rw [List.length_append, List.length_drop]; omega)
          omega
        by_cases hshort : written < header.length - headerOffset
        · obtain ⟨bodyOffset, link', h₂⟩ := ih _ (by omega) (headerOffset + written)
            ((wrote_of_writeVectored h₁).2.accepting haccepts) rfl
          refine ⟨bodyOffset, link', returns_bind.mpr ⟨written, middle, h₁, ?_⟩⟩
          rw [dif_neg hzero, if_pos hshort]
          exact h₂
        · refine ⟨0 + (written - (header.length - headerOffset)), middle,
            returns_bind.mpr ⟨written, middle, h₁, ?_⟩⟩
          rw [dif_neg hzero, if_neg hshort, writeHeader, dif_neg (Nat.lt_irrefl _)]
          exact returns_pure.mpr ⟨rfl, rfl⟩
      · exact ⟨0, link, returns_pure.mpr ⟨rfl, rfl⟩⟩

theorem writes_writeParts (header body : Bytes) :
    Writes (writeParts header body : Io ε Unit) (header ++ body) () where
  of_returns h := by
    obtain ⟨bodyOffset, middle, h₁, h₂⟩ := returns_bind.mp h
    obtain ⟨hle, hwrote⟩ := wrote_of_writeHeader h₁
    split_ifs at h₂ with hshort
    · have hboth := hwrote.trans ((writes_writeAll _).of_returns h₂).2
      simpa using hboth
    · obtain ⟨_, rfl⟩ := returns_pure.mp h₂
      rw [List.take_of_length_le (by omega)] at hwrote
      simpa using hwrote
  of_fails h := by
    rcases fails_bind.mp h with h | ⟨bodyOffset, middle, h₁, h₂⟩
    · simpa using fails_writeHeader h
    obtain ⟨hle, hwrote⟩ := wrote_of_writeHeader h₁
    split_ifs at h₂ with hshort
    · obtain ⟨hio, part, hpart, hmore⟩ := (writes_writeAll _).of_fails h₂
      refine ⟨hio, _, ?_, hwrote.trans hmore⟩
      have hboth := (List.prefix_append_right_inj (header ++ body.take bodyOffset)).mpr hpart
      rwa [List.append_assoc header (body.take _) (body.drop _),
        List.take_append_drop] at hboth
    · exact (not_fails_pure h₂).elim
  returns haccepts := by
    obtain ⟨bodyOffset, middle, h₁⟩ := writeHeader_returns header body 0 haccepts
    have hmiddle := (wrote_of_writeHeader h₁).2.accepting haccepts
    by_cases hshort : bodyOffset < body.length
    · obtain ⟨link', h₂⟩ := (writes_writeAll (body.drop bodyOffset)).returns hmiddle
      refine ⟨link', returns_bind.mpr ⟨bodyOffset, middle, h₁, ?_⟩⟩
      rw [if_pos hshort]
      exact h₂
    · refine ⟨middle, returns_bind.mpr ⟨bodyOffset, middle, h₁, ?_⟩⟩
      rw [if_neg hshort]
      exact returns_pure.mpr ⟨rfl, rfl⟩

/-- Fills a buffer of `len` bytes. -/
def readExact (len : Nat) : Io ε Bytes :=
  ExceptT.mk fun link =>
    if len ≤ link.incoming.length then
      (.ok (link.incoming.take len), { link with incoming := link.incoming.drop len })
    else (.error (.io .unexpectedEof), { link with incoming := [] })

theorem returns_readExact {len : Nat} {bytes : Bytes} {link link' : Link} :
    Returns (readExact len : Io ε Bytes) link bytes link' ↔
      bytes.length = len ∧ link.incoming = bytes ++ link'.incoming ∧
        link' = { link with incoming := link'.incoming } := by
  have houtcome : outcome (readExact len : Io ε Bytes) link =
      if len ≤ link.incoming.length then
        (.ok (link.incoming.take len), { link with incoming := link.incoming.drop len })
      else (.error (.io .unexpectedEof), { link with incoming := [] }) := rfl
  rw [Returns, houtcome]
  split_ifs with hle
  · constructor
    · intro h
      obtain ⟨⟨rfl⟩, rfl⟩ := Prod.mk.inj h
      simpa using hle
    · rintro ⟨rfl, hincoming, hlink⟩
      rw [hlink, hincoming]
      simp
  · constructor
    · intro h
      simp at h
    · rintro ⟨rfl, hincoming, _⟩
      rw [hincoming, List.length_append] at hle
      omega

/-- A program that consumes exactly `bytes` and returns `value`, whatever follows. -/
def Reads (program : Io ε α) (bytes : Bytes) (value : α) : Prop :=
  ∀ (link : Link) (rest : Bytes), link.incoming = bytes ++ rest →
    Returns program link value { link with incoming := rest }

theorem Reads.pure (a : α) : Reads (pure a : Io ε α) [] a := by
  intro link rest hincoming
  rw [List.nil_append] at hincoming
  exact returns_pure.mpr ⟨rfl, by rw [← hincoming]⟩

theorem Reads.bind {program : Io ε α} {next : α → Io ε β} {xs ys : Bytes} {a : α} {b : β}
    (hfirst : Reads program xs a) (hnext : Reads (next a) ys b) :
    Reads (program >>= next) (xs ++ ys) b := by
  intro link rest hincoming
  rw [List.append_assoc] at hincoming
  exact returns_bind.mpr ⟨a, _, hfirst link _ hincoming, hnext _ rest rfl⟩

theorem reads_readExact (bytes : Bytes) :
    Reads (readExact bytes.length : Io ε Bytes) bytes bytes := by
  intro link rest hincoming
  exact returns_readExact.mpr ⟨rfl, hincoming, rfl⟩

theorem reads_attempt {result : Except ε α} {a : α} (h : result = .ok a) :
    Reads (attempt result : Io ε α) [] a := by
  subst h
  exact .pure a

/-- With an accepting writer, a program that reads exactly `input`, writes `output` and
returns `value`. -/
def Exchanges (program : Io ε α) (input output : Bytes) (value : α) : Prop :=
  ∀ (link : Link) (rest : Bytes), link.Accepting → link.incoming = input ++ rest →
    ∃ link', Returns program link value link' ∧ link'.incoming = rest ∧
      link'.outgoing = link.outgoing ++ output ∧ link'.Accepting

theorem Reads.exchanges {program : Io ε α} {input : Bytes} {value : α}
    (h : Reads program input value) : Exchanges program input [] value := by
  intro link rest haccepts hincoming
  exact ⟨_, h link rest hincoming, rfl, (List.append_nil _).symm, haccepts⟩

theorem Writes.exchanges {program : Io ε α} {output : Bytes} {value : α}
    (h : Writes program output value) : Exchanges program [] output value := by
  intro link rest haccepts hincoming
  obtain ⟨link', hreturns⟩ := h.returns haccepts
  obtain ⟨_, hwrote⟩ := h.of_returns hreturns
  exact ⟨link', hreturns, hwrote.incoming.trans hincoming, hwrote.outgoing,
    hwrote.accepting haccepts⟩

theorem Exchanges.bind {program : Io ε α} {next : α → Io ε β} {input input' output output' : Bytes}
    {a : α} {b : β} (hfirst : Exchanges program input output a)
    (hnext : Exchanges (next a) input' output' b) :
    Exchanges (program >>= next) (input ++ input') (output ++ output') b := by
  intro link rest haccepts hincoming
  rw [List.append_assoc] at hincoming
  obtain ⟨middle, h₁, hincoming₁, houtgoing₁, haccepts₁⟩ := hfirst link _ haccepts hincoming
  obtain ⟨link', h₂, hincoming₂, houtgoing₂, haccepts₂⟩ := hnext middle rest haccepts₁ hincoming₁
  refine ⟨link', returns_bind.mpr ⟨a, middle, h₁, h₂⟩, hincoming₂, ?_, haccepts₂⟩
  rw [houtgoing₂, houtgoing₁, List.append_assoc]

theorem exchanges_pure (a : α) : Exchanges (pure a : Io ε α) [] [] a :=
  (Reads.pure a).exchanges

theorem Exchanges.of_eq {program : Io ε α} {input input' output output' : Bytes} {a : α}
    (h : Exchanges program input output a) (hinput : input = input')
    (houtput : output = output') : Exchanges program input' output' a := by
  subst hinput houtput
  exact h

section Sequences

variable {program : Io ε α} {next : α → Io ε β} {bytes input output : Bytes} {a : α} {b : β}

theorem Exchanges.after_attempt {result : Except ε α} (h : result = .ok a)
    (hnext : Exchanges (next a) input output b) :
    Exchanges (attempt result >>= next) input output b := by
  subst h
  exact hnext

theorem Exchanges.after_read (h : Reads program bytes a)
    (hnext : Exchanges (next a) input output b) :
    Exchanges (program >>= next) (bytes ++ input) output b :=
  h.exchanges.bind hnext

theorem Exchanges.after_write (h : Writes program bytes a)
    (hnext : Exchanges (next a) input output b) :
    Exchanges (program >>= next) input (bytes ++ output) b :=
  h.exchanges.bind hnext

theorem Exchanges.else_branch {c : Prop} [Decidable c] {skipped : Io ε α} (hc : ¬ c)
    (h : Exchanges program input output a) :
    Exchanges (if c then skipped else program) input output a := by
  rwa [if_neg hc]

end Sequences

end SideWire.ByteLink
