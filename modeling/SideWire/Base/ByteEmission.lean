import SideWire.Base.ByteLink

/-!
What a program writes when the writer stops it halfway.
-/

namespace SideWire.ByteLink

open SideWire.ByteString

variable {ε α β : Type}

/-- A program that writes `bytes` up to its own result: it may stop before, but only
with the connection and after a part of them. -/
structure Emits (program : Io ε α) (bytes : Bytes) (result : Except ε α) : Prop where
  of_returns : ∀ {link a link'}, Returns program link a link' →
    result = .ok a ∧ Wrote bytes link link'
  of_raised : ∀ {link error link'}, Fails program link (.raised error) link' →
    result = .error error ∧ Wrote bytes link link'
  of_io : ∀ {link error link'}, Fails program link (.io error) link' →
    ∃ part, part <+: bytes ∧ Wrote part link link'

section Rules

variable {program : Io ε α} {next : α → Io ε β} {xs ys : Bytes} {a : α} {b : β}

theorem Writes.emits (h : Writes program xs a) : Emits program xs (.ok a) where
  of_returns hreturns := by
    obtain ⟨rfl, hwrote⟩ := h.of_returns hreturns
    exact ⟨rfl, hwrote⟩
  of_raised hfails := by
    obtain ⟨⟨_, heq⟩, _⟩ := h.of_fails hfails
    exact nomatch heq
  of_io hfails := (h.of_fails hfails).2

theorem emits_attempt (result : Except ε α) : Emits (attempt result) [] result where
  of_returns h := by
    obtain ⟨hresult, rfl⟩ := returns_attempt.mp h
    exact ⟨hresult, .refl _⟩
  of_raised h := by
    obtain ⟨⟨_, hresult, heq⟩, rfl⟩ := fails_attempt.mp h
    obtain rfl := Failure.raised.inj heq
    exact ⟨hresult, .refl _⟩
  of_io h := by
    obtain ⟨⟨_, _, heq⟩, _⟩ := fails_attempt.mp h
    exact nomatch heq

theorem emits_fail (error : ε) : Emits (fail error : Io ε α) [] (.error error) :=
  emits_attempt (.error error)

theorem Emits.bind {result : Except ε β} (hfirst : Emits program xs (.ok a))
    (hnext : Emits (next a) ys result) : Emits (program >>= next) (xs ++ ys) result where
  of_returns h := by
    obtain ⟨_, middle, h₁, h₂⟩ := returns_bind.mp h
    obtain ⟨⟨rfl⟩, hwrote⟩ := hfirst.of_returns h₁
    obtain ⟨hresult, hmore⟩ := hnext.of_returns h₂
    exact ⟨hresult, hwrote.trans hmore⟩
  of_raised h := by
    rcases fails_bind.mp h with h | ⟨_, middle, h₁, h₂⟩
    · exact nomatch (hfirst.of_raised h).1
    · obtain ⟨⟨rfl⟩, hwrote⟩ := hfirst.of_returns h₁
      obtain ⟨hresult, hmore⟩ := hnext.of_raised h₂
      exact ⟨hresult, hwrote.trans hmore⟩
  of_io h := by
    rcases fails_bind.mp h with h | ⟨_, middle, h₁, h₂⟩
    · obtain ⟨part, hpart, hwrote⟩ := hfirst.of_io h
      exact ⟨part, hpart.trans (List.prefix_append _ _), hwrote⟩
    · obtain ⟨⟨rfl⟩, hwrote⟩ := hfirst.of_returns h₁
      obtain ⟨part, hpart, hmore⟩ := hnext.of_io h₂
      exact ⟨xs ++ part, (List.prefix_append_right_inj xs).mpr hpart, hwrote.trans hmore⟩

theorem Emits.bind_error {error : ε} (hfirst : Emits program xs (.error error)) :
    Emits (program >>= next) xs (.error error : Except ε β) where
  of_returns h := by
    obtain ⟨_, _, h₁, _⟩ := returns_bind.mp h
    exact nomatch (hfirst.of_returns h₁).1
  of_raised h := by
    rcases fails_bind.mp h with h | ⟨_, _, h₁, _⟩
    · obtain ⟨⟨rfl⟩, hwrote⟩ := hfirst.of_raised h
      exact ⟨rfl, hwrote⟩
    · exact nomatch (hfirst.of_returns h₁).1
  of_io h := by
    rcases fails_bind.mp h with h | ⟨_, _, h₁, _⟩
    · exact hfirst.of_io h
    · exact nomatch (hfirst.of_returns h₁).1

/-- A program that emits some bytes, with `post` for them and its value where it returns. -/
def EmitsTo (program : Io ε α) (post : Bytes → α → Prop) : Prop :=
  ∃ bytes result, Emits program bytes result ∧ ∀ a, result = .ok a → post bytes a

theorem Emits.emitsTo {result : Except ε α} (h : Emits program xs result) :
    EmitsTo program fun bytes a => bytes = xs ∧ result = .ok a :=
  ⟨xs, result, h, fun _ hresult => ⟨rfl, hresult⟩⟩

theorem EmitsTo.bind {post : Bytes → α → Prop} {last : Bytes → β → Prop}
    (hfirst : EmitsTo program post)
    (hnext : ∀ front a, post front a → EmitsTo (next a) fun bytes => last (front ++ bytes)) :
    EmitsTo (program >>= next) last := by
  obtain ⟨bytes, result, hfirst, hpost⟩ := hfirst
  cases result with
  | error error => exact ⟨bytes, .error error, hfirst.bind_error, nofun⟩
  | ok a =>
      obtain ⟨more, result, hnext, hlast⟩ := hnext bytes a (hpost a rfl)
      exact ⟨bytes ++ more, result, hfirst.bind hnext, hlast⟩

theorem emitsTo_fail (error : ε) {post : Bytes → α → Prop} :
    EmitsTo (fail error : Io ε α) post :=
  ⟨[], .error error, emits_fail error, nofun⟩

theorem emitsTo_pure {post : Bytes → α → Prop} (h : post [] a) :
    EmitsTo (pure a : Io ε α) post :=
  ⟨[], .ok a, (Writes.pure a).emits, fun _ heq => Except.ok.inj heq ▸ h⟩

theorem emitsTo_attempt (result : Except ε α) :
    EmitsTo (attempt result) fun bytes a => bytes = [] ∧ result = .ok a :=
  (emits_attempt result).emitsTo

end Rules

/-- A connection on which `taken` has been written and whose writer answers the next
calls with `answers`, and then no more. -/
def answering (taken : Bytes) (answers : List Nat) : Link :=
  ⟨[], taken, fun n => answers[n]?⟩

/-- A program under way, after the writer has answered so many of its calls. -/
def underWay (program : Io ε α) (taken : Bytes) (answers : List Nat) :
    Except (Failure ε) α × Link :=
  outcome program (answering taken answers)

section UnderWay

variable {program : Io ε α} {bytes taken : Bytes} {result : Except ε α} {answers : List Nat}

theorem Emits.outgoing_underWay (h : Emits program bytes result) :
    ∃ part, part <+: bytes ∧ (underWay program taken answers).2.outgoing = taken ++ part := by
  have hrun : outcome program (answering taken answers) = underWay program taken answers := rfl
  rcases hunderWay : underWay program taken answers with ⟨(error | error) | a, link⟩
  · obtain ⟨part, hpart, hwrote⟩ := h.of_io (hrun.trans hunderWay)
    exact ⟨part, hpart, hwrote.outgoing⟩
  · exact ⟨bytes, List.prefix_rfl, (h.of_raised (hrun.trans hunderWay)).2.outgoing⟩
  · exact ⟨bytes, List.prefix_rfl, (h.of_returns (hrun.trans hunderWay)).2.outgoing⟩

theorem Emits.of_underWay {a : α} {link : Link} (h : Emits program bytes result)
    (hreturns : underWay program taken answers = (.ok a, link)) :
    result = .ok a ∧ link.outgoing = taken ++ bytes := by
  obtain ⟨hresult, hwrote⟩ := h.of_returns hreturns
  exact ⟨hresult, hwrote.outgoing⟩

theorem underWay_writeParts_nil {header body : Bytes} (hheader : 0 < header.length) :
    ∃ link, underWay (writeParts header body : Io ε Unit) taken [] =
      (.error (.io .broken), link) := by
  have hnone : (answering taken []).answers 0 = none := rfl
  rw [underWay, writeParts, outcome_bind, writeHeader, dif_pos hheader, outcome_bind,
    outcome_writeVectored_of_none hnone]
  exact ⟨_, rfl⟩

theorem underWay_writeParts_of_lt {header body : Bytes} {count : Nat} (hpos : 0 < count)
    (hcount : count < header.length) :
    ∃ link, underWay (writeParts header body : Io ε Unit) taken [count] =
      (.error (.io .broken), link) ∧ link.outgoing = taken ++ header.take count := by
  have hsome : (answering taken [count]).answers 0 = some count := rfl
  have hwritten : min count (header.drop 0 ++ body.drop 0).length = count := by
    simp
    omega
  have hnone : ∀ outgoing, (Link.mk (answering taken [count]).incoming outgoing
      fun n => (answering taken [count]).answers (n + 1)).answers 0 = none := fun _ => rfl
  rw [underWay, writeParts, outcome_bind, writeHeader, dif_pos (by omega), outcome_bind,
    outcome_writeVectored_of_some hsome, hwritten]
  dsimp only
  rw [dif_neg (by omega), if_pos (by omega), writeHeader, dif_pos (by omega), outcome_bind,
    outcome_writeVectored_of_none (hnone _)]
  refine ⟨_, rfl, ?_⟩
  simp [answering, List.take_append_of_le_length hcount.le]

theorem underWay_writeParts_of_le {header body : Bytes} {count : Nat}
    (hheader : 0 < header.length) (hcount : header.length + body.length ≤ count) :
    ∃ link, underWay (writeParts header body : Io ε Unit) taken [count] = (.ok (), link) ∧
      link.outgoing = taken ++ (header ++ body) := by
  have hsome : (answering taken [count]).answers 0 = some count := rfl
  have hwritten : min count (header.drop 0 ++ body.drop 0).length =
      header.length + body.length := by
    simp
    omega
  rw [underWay, writeParts, outcome_bind, writeHeader, dif_pos hheader, outcome_bind,
    outcome_writeVectored_of_some hsome, hwritten]
  dsimp only
  rw [dif_neg (by omega), if_neg (by omega), writeHeader, dif_neg (Nat.lt_irrefl _), outcome_pure]
  dsimp only
  rw [if_neg (by omega), outcome_pure]
  refine ⟨_, rfl, ?_⟩
  have hall : (header ++ body).take count = header ++ body :=
    List.take_of_length_le (by rwa [List.length_append])
  simp [answering, hall]

end UnderWay

/-- `link'` is `link` with a writer that may go on answering. -/
structure Link.Extends (link link' : Link) : Prop where
  incoming : link'.incoming = link.incoming
  outgoing : link'.outgoing = link.outgoing
  answers : ∀ n taken, link.answers n = some taken → link'.answers n = some taken

/-- A program that takes back nothing: given more answers it does the same, and goes on
where it would have stopped. -/
structure Resumes (program : Io ε α) : Prop where
  appends : ∀ link, link.outgoing <+: (outcome program link).2.outgoing
  resumes : ∀ {link link'}, link.Extends link' →
    (∃ error, (outcome program link).1 = .error (.io error) ∧
      (outcome program link).2.outgoing <+: (outcome program link').2.outgoing) ∨
    ((outcome program link').1 = (outcome program link).1 ∧
      (outcome program link).2.Extends (outcome program link').2)

section Resumes

variable {program : Io ε α} {next : α → Io ε β}

theorem resumes_pure (a : α) : Resumes (pure a : Io ε α) where
  appends _ := List.prefix_rfl
  resumes h := .inr ⟨rfl, h⟩

theorem resumes_throw (failure : Failure ε) : Resumes (throw failure : Io ε α) where
  appends _ := List.prefix_rfl
  resumes h := .inr ⟨rfl, h⟩

theorem resumes_attempt (result : Except ε α) : Resumes (attempt result) := by
  cases result with
  | ok a => exact resumes_pure a
  | error error => exact resumes_throw (.raised error)

theorem Resumes.bind (hfirst : Resumes program) (hnext : ∀ a, Resumes (next a)) :
    Resumes (program >>= next) where
  appends link := by
    have happends := hfirst.appends link
    rw [outcome_bind]
    rcases hrun : outcome program link with ⟨failure | a, middle⟩
    · rwa [hrun] at happends
    · rw [hrun] at happends
      exact happends.trans ((hnext a).appends middle)
  resumes {link link'} h := by
    have hresumes := hfirst.resumes h
    have hmore : (outcome program link').2.outgoing <+:
        (outcome (program >>= next) link').2.outgoing := by
      rw [outcome_bind]
      rcases outcome program link' with ⟨failure | a, middle⟩
      · exact List.prefix_rfl
      · exact (hnext a).appends middle
    rw [outcome_bind program next link]
    rcases hrun : outcome program link with ⟨failure | a, middle⟩
    · rw [hrun] at hresumes
      rcases hresumes with ⟨error, hio, hpart⟩ | ⟨hsame, hextends⟩
      · obtain rfl := Except.error.inj hio
        exact .inl ⟨error, rfl, hpart.trans hmore⟩
      · rw [outcome_bind]
        rcases hrun' : outcome program link' with ⟨failure' | _, middle'⟩
        · rw [hrun'] at hsame hextends
          obtain rfl := Except.error.inj hsame
          exact .inr ⟨rfl, hextends⟩
        · exact nomatch hrun' ▸ hsame
    · rw [hrun] at hresumes
      rcases hresumes with ⟨_, hio, _⟩ | ⟨hsame, hextends⟩
      · exact nomatch hio
      · rw [outcome_bind]
        rcases hrun' : outcome program link' with ⟨_ | a', middle'⟩
        · exact nomatch hrun' ▸ hsame
        · rw [hrun'] at hsame hextends
          obtain rfl := Except.ok.inj hsame
          exact (hnext a').resumes hextends

theorem resumes_writeVectored (first second : Bytes) :
    Resumes (writeVectored first second : Io ε Nat) where
  appends link := by
    cases htaken : link.answers 0 with
    | none => simp only [outcome_writeVectored_of_none htaken, List.prefix_rfl]
    | some taken =>
        rw [outcome_writeVectored_of_some htaken]
        exact List.prefix_append _ _
  resumes {link link'} h := by
    cases htaken : link.answers 0 with
    | none =>
        rw [outcome_writeVectored_of_none htaken]
        refine .inl ⟨_, rfl, ?_⟩
        rw [← h.outgoing]
        cases htaken' : link'.answers 0 with
        | none => simp only [outcome_writeVectored_of_none htaken', List.prefix_rfl]
        | some taken =>
            rw [outcome_writeVectored_of_some htaken']
            exact List.prefix_append _ _
    | some taken =>
        rw [outcome_writeVectored_of_some htaken,
          outcome_writeVectored_of_some (h.answers 0 taken htaken)]
        refine .inr ⟨rfl, h.incoming, congrArg (· ++ _) h.outgoing, ?_⟩
        intro n
        exact h.answers (n + 1)

theorem resumes_writeAll (bytes : Bytes) : Resumes (writeAll bytes : Io ε Unit) := by
  induction hlen : bytes.length using Nat.strong_induction_on generalizing bytes with
  | _ len ih =>
      rw [writeAll]
      split_ifs with hempty
      · exact resumes_pure ()
      · refine (resumes_writeVectored bytes []).bind ?_
        intro written
        split_ifs with hzero
        · exact resumes_throw _
        · apply ih (bytes.drop written).length
          · rw [List.length_drop]
            omega
          · rfl

theorem resumes_flush : Resumes (flush : Io ε Unit) :=
  (resumes_writeVectored [] []).bind fun _ => resumes_pure ()

theorem resumes_writeHeader (header body : Bytes) (headerOffset bodyOffset : Nat) :
    Resumes (writeHeader header body headerOffset bodyOffset : Io ε Nat) := by
  induction hleft : header.length - headerOffset using Nat.strong_induction_on
    generalizing headerOffset bodyOffset with
  | _ left ih =>
      rw [writeHeader]
      split_ifs with hoffset
      · refine (resumes_writeVectored _ _).bind ?_
        intro written
        split_ifs with hzero hshort
        · exact resumes_throw _
        · exact ih _ (by omega) _ _ rfl
        · exact ih _ (by omega) _ _ rfl
      · exact resumes_pure _

theorem resumes_writeParts (header body : Bytes) :
    Resumes (writeParts header body : Io ε Unit) := by
  refine (resumes_writeHeader header body 0 0).bind ?_
  intro bodyOffset
  split_ifs
  · exact resumes_writeAll _
  · exact resumes_pure ()

/-- The bytes of a program under way stay where they are when more answers come. -/
theorem Resumes.underWay (h : Resumes program) (taken : Bytes) (answers more : List Nat) :
    (underWay program taken answers).2.outgoing <+:
      (underWay program taken (answers ++ more)).2.outgoing := by
  have hextends : (answering taken answers).Extends (answering taken (answers ++ more)) := by
    refine ⟨rfl, rfl, ?_⟩
    intro n taken' hanswer
    exact List.getElem?_append_left (List.getElem?_eq_some_iff.mp hanswer).1 |>.trans hanswer
  rcases h.resumes hextends with ⟨_, _, hpart⟩ | ⟨_, hrest⟩
  · exact hpart
  · exact hrest.outgoing ▸ List.prefix_rfl

end Resumes

end SideWire.ByteLink
