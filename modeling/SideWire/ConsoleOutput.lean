import SideWire.Base.Utf8

/-!
The decoder of the console output: it takes the bytes in chunks and emits text.
-/

namespace SideWire.ConsoleOutput

open SideWire.ByteString
open SideWire.SequenceCode
open SideWire.Utf8

/-- A `str`, by its bytes. -/
structure Str where
  bytes : Bytes
  valid : utf8.Valid bytes

structure Utf8Error where
  validUpTo : Nat
  errorLen : Option Nat
  deriving DecidableEq

/-- `std::str::from_utf8`: the text, or where the first bytes stand that are none. -/
def fromUtf8 (bytes : Bytes) : Except Utf8Error Str :=
  if h : utf8.leading bytes = bytes.length then .ok ⟨bytes, valid_iff_leading.mpr h⟩
  else
    .error ⟨utf8.leading bytes,
      match utf8.scan (bytes.drop (utf8.leading bytes)) with
      | .bad len => some len
      | _ => none⟩

/-- U+FFFD. -/
def replacement : Str where
  bytes := [0xEF, 0xBF, 0xBD]
  valid := ⟨[[0xEF, 0xBF, 0xBD]],
    List.forall_mem_singleton.mpr (word_iff.mpr ⟨Char.ofNat 0xFFFD, by decide⟩), rfl⟩

/-- `String::from_utf8_lossy`. -/
def fromUtf8Lossy (bytes : Bytes) : Str where
  bytes := utf8.lossy replacement.bytes bytes
  valid := valid_lossy replacement.valid bytes

@[simp] theorem bytes_fromUtf8Lossy (bytes : Bytes) :
    (fromUtf8Lossy bytes).bytes = utf8.lossy replacement.bytes bytes := rfl

/-- How a call ends that does not return. -/
inductive Stop (ε : Type)
  | io (error : ε)
  | panic (message : String)

/-- What the caller does with a text: `FnMut(&str) -> io::Result<()>` on a state `σ`. -/
abbrev Emit (ε σ : Type) := Str → σ → Except ε Unit × σ

structure Utf8ConsoleDecoder where
  pending : Bytes

variable {ε σ : Type}

/-- Emits the part of the pending bytes that is text. -/
def emitValid (emit : Emit ε σ) (pending : Bytes) (validUpTo : Nat) (state : σ) :
    Except (Stop ε) Unit × σ :=
  if 0 < validUpTo then
    match fromUtf8 (pending.take validUpTo) with
    | .error _ => (.error (.panic "validated UTF-8 prefix"), state)
    | .ok text =>
        match emit text state with
        | (.error error, state) => (.error (.io error), state)
        | (.ok (), state) => (.ok (), state)
  else (.ok (), state)

section FromUtf8

variable {bytes : Bytes} {error : Utf8Error} {text : Str}

theorem fromUtf8_eq_ok_iff :
    fromUtf8 bytes = .ok text ↔ text.bytes = bytes := by
  rw [fromUtf8]
  constructor
  · intro h
    split_ifs at h with hvalid
    obtain rfl := Except.ok.inj h
    rfl
  · rintro rfl
    rw [dif_pos (valid_iff_leading.mp text.valid)]

theorem fromUtf8_error (h : fromUtf8 bytes = .error error) :
    error.validUpTo = utf8.leading bytes ∧ bytes.drop error.validUpTo ≠ [] ∧
      ∀ found, utf8.scan (bytes.drop error.validUpTo) = found →
        (∃ len, found = .bad len ∧ error.errorLen = some len) ∨
          found = .short ∧ error.errorLen = none := by
  rw [fromUtf8] at h
  split_ifs at h with hvalid
  obtain rfl := Except.error.inj h
  refine ⟨rfl, ?_, ?_⟩
  · have hle := leading_le_length utf8 bytes
    rw [ne_eq, List.drop_eq_nil_iff]
    dsimp only
    omega
  · rintro found hfound
    have hword := scan_drop_leading utf8 bytes
    dsimp only at hfound ⊢
    rw [hfound] at hword ⊢
    cases found with
    | word len => exact (hword len rfl).elim
    | bad len => exact .inl ⟨len, rfl, rfl⟩
    | short => exact .inr ⟨rfl, rfl⟩

theorem scan_of_errorLen {len : Nat} (h : fromUtf8 bytes = .error error)
    (hlen : error.errorLen = some len) :
    utf8.scan (bytes.drop error.validUpTo) = .bad len := by
  obtain ⟨-, -, hfound⟩ := fromUtf8_error h
  rcases hfound _ rfl with ⟨len', hscan, hlen'⟩ | ⟨-, hnone⟩
  · obtain rfl := Option.some.inj (hlen.symm.trans hlen')
    exact hscan
  · exact nomatch hlen.symm.trans hnone

/-- The documentation of `Utf8Error`: how much is text, and what stands after it. -/
theorem fromUtf8_error_spec (h : fromUtf8 bytes = .error error) :
    utf8.Valid (bytes.take error.validUpTo) ∧
      (∀ front more, bytes = front ++ more → utf8.Valid front →
        front.length ≤ error.validUpTo) ∧
      (error.errorLen = none ↔ utf8.Incomplete (bytes.drop error.validUpTo)) ∧
      ∀ len, error.errorLen = some len →
        (len = 1 ∨ utf8.Incomplete ((bytes.drop error.validUpTo).take len)) ∧
        ∀ more, ¬ utf8.Word ((bytes.drop error.validUpTo).take (len + 1) ++ more) := by
  obtain ⟨hupTo, hne, hfound⟩ := fromUtf8_error h
  refine ⟨?_, ?_, ?_, ?_⟩
  · rw [hupTo]
    exact valid_take_leading utf8 bytes
  · rintro front more rfl hfront
    rw [hupTo]
    exact length_le_leading hfront more
  · rw [← scan_eq_short_iff hne]
    rcases hfound _ rfl with ⟨len, hscan, hlen⟩ | ⟨hscan, hnone⟩
    · simp [hscan, hlen]
    · simp [hscan, hnone]
  · intro len hlen
    obtain ⟨-, -, hsubpart, hmaximal⟩ := scan_bad (scan_of_errorLen h hlen)
    exact ⟨hsubpart, hmaximal⟩

theorem drop_lt_of_fromUtf8 {len : Nat} (h : fromUtf8 bytes = .error error)
    (hlen : error.errorLen = some len) :
    ((bytes.drop error.validUpTo).drop len).length < bytes.length := by
  have hlt := length_drop_lt (.inr (scan_of_errorLen h hlen))
  rw [List.length_drop (l := bytes)] at hlt
  omega

end FromUtf8

/-- The loop of `push`. -/
def pushLoop (emit : Emit ε σ) (pending : Bytes) (state : σ) :
    Except (Stop ε) Unit × Utf8ConsoleDecoder × σ :=
  match _herror : fromUtf8 pending with
  | .ok text =>
      if text.bytes.isEmpty then (.ok (), ⟨[]⟩, state)
      else
        match emit text state with
        | (.error error, state) => (.error (.io error), ⟨pending⟩, state)
        | (.ok (), state) => (.ok (), ⟨[]⟩, state)
  | .error error =>
      match emitValid emit pending error.validUpTo state with
      | (.error stop, state) => (.error stop, ⟨pending⟩, state)
      | (.ok (), state) =>
          match _hlen : error.errorLen with
          | none => (.ok (), ⟨pending.drop error.validUpTo⟩, state)
          | some len =>
              match emit replacement state with
              | (.error stop, state) =>
                  (.error (.io stop), ⟨pending.drop error.validUpTo⟩, state)
              | (.ok (), state) =>
                  pushLoop emit ((pending.drop error.validUpTo).drop len) state
termination_by pending.length
decreasing_by exact drop_lt_of_fromUtf8 _herror _hlen

namespace Utf8ConsoleDecoder

def push (emit : Emit ε σ) (decoder : Utf8ConsoleDecoder) (bytes : Bytes) (state : σ) :
    Except (Stop ε) Unit × Utf8ConsoleDecoder × σ :=
  pushLoop emit (decoder.pending ++ bytes) state

def finish (emit : Emit ε σ) (decoder : Utf8ConsoleDecoder) (state : σ) :
    Except (Stop ε) Unit × Utf8ConsoleDecoder × σ :=
  if decoder.pending.isEmpty then (.ok (), decoder, state)
  else
    match emit (fromUtf8Lossy decoder.pending) state with
    | (.error error, state) => (.error (.io error), decoder, state)
    | (.ok (), state) => (.ok (), ⟨[]⟩, state)

/-- `push` for each chunk, as long as all goes well. -/
def pushAll (emit : Emit ε σ) (decoder : Utf8ConsoleDecoder) :
    List Bytes → σ → Except (Stop ε) Unit × Utf8ConsoleDecoder × σ
  | [], state => (.ok (), decoder, state)
  | chunk :: chunks, state =>
      match decoder.push emit chunk state with
      | (.error stop, decoder, state) => (.error stop, decoder, state)
      | (.ok (), decoder, state) => decoder.pushAll emit chunks state

end Utf8ConsoleDecoder

section Decoding

variable {emit : Emit ε σ}

/-- An emit that succeeds. -/
def Succeeds (emit : Emit ε σ) : Prop := ∀ text state, (emit text state).1 = .ok ()

/-- The state after some texts have been emitted. -/
def emitAll (emit : Emit ε σ) (texts : List Str) (state : σ) : σ :=
  texts.foldl (fun state text => (emit text state).2) state

theorem emitAll_append (emit : Emit ε σ) (texts more : List Str) (state : σ) :
    emitAll emit (texts ++ more) state = emitAll emit more (emitAll emit texts state) :=
  List.foldl_append

theorem Succeeds.emit_eq (h : Succeeds emit) (text : Str) (state : σ) :
    emit text state = (.ok (), emitAll emit [text] state) :=
  Prod.ext (h text state) rfl

theorem Succeeds.emitValid_eq (h : Succeeds emit) {pending : Bytes} {validUpTo : Nat}
    (hvalid : utf8.Valid (pending.take validUpTo)) (state : σ) :
    ∃ texts, emitValid emit pending validUpTo state = (.ok (), emitAll emit texts state) ∧
      texts.flatMap Str.bytes = pending.take validUpTo := by
  rw [emitValid]
  split_ifs with hpos
  · refine ⟨[⟨_, hvalid⟩], ?_, List.flatMap_singleton ..⟩
    have hok : fromUtf8 (pending.take validUpTo) = .ok ⟨_, hvalid⟩ := fromUtf8_eq_ok_iff.mpr rfl
    rw [hok]
    simp only [h.emit_eq]
  · refine ⟨[], rfl, ?_⟩
    rw [Nat.eq_zero_of_not_pos hpos, List.take_zero]
    rfl

theorem settle_of_valid {bytes : Bytes} (h : utf8.Valid bytes) (mark : Bytes) :
    utf8.settle mark bytes = (bytes, []) := by
  have hnil : utf8.settle mark [] = ([], []) := settle_of_short rfl
  rw [settle_leading, valid_iff_leading.mp h, List.take_length, List.drop_length, hnil,
    List.append_nil]

theorem Succeeds.pushLoop_eq (h : Succeeds emit) (pending : Bytes) (state : σ) :
    ∃ texts, pushLoop emit pending state =
        (.ok (), ⟨(utf8.settle replacement.bytes pending).2⟩, emitAll emit texts state) ∧
      texts.flatMap Str.bytes = (utf8.settle replacement.bytes pending).1 := by
  induction hsize : pending.length using Nat.strong_induction_on generalizing pending state with
  | _ size ih =>
      rw [pushLoop]
      split
      · rename_i text hok
        obtain rfl := fromUtf8_eq_ok_iff.mp hok
        rw [settle_of_valid text.valid]
        split_ifs with hempty
        · exact ⟨[], rfl, (List.isEmpty_iff.mp hempty).symm⟩
        · refine ⟨[text], ?_, List.flatMap_singleton ..⟩
          simp only [h.emit_eq]
      · rename_i error herror
        obtain ⟨hvalid, -⟩ := fromUtf8_error_spec herror
        obtain ⟨hupTo, -, hfound⟩ := fromUtf8_error herror
        obtain ⟨texts, hemitted, htexts⟩ := h.emitValid_eq hvalid state
        simp only [hemitted]
        rw [settle_leading, ← hupTo]
        rcases hfound _ rfl with ⟨len, hscan, hlen⟩ | ⟨hscan, hnone⟩
        · obtain ⟨more, hmore, hmoreTexts⟩ := ih _
            (by have := drop_lt_of_fromUtf8 herror hlen; omega)
            ((pending.drop error.validUpTo).drop len)
            (emitAll emit [replacement] (emitAll emit texts state)) rfl
          refine ⟨texts ++ [replacement] ++ more, ?_, ?_⟩
          · split
            · rename_i hnone
              exact nomatch hlen.symm.trans hnone
            · rename_i len' hlen'
              obtain rfl := Option.some.inj (hlen.symm.trans hlen')
              simp only [h.emit_eq]
              rw [hmore, settle_of_bad hscan, emitAll_append, emitAll_append]
          · rw [settle_of_bad hscan, List.flatMap_append, List.flatMap_append, htexts, hmoreTexts]
            simp
        · refine ⟨texts, ?_, ?_⟩
          · split
            · rw [settle_of_short hscan]
            · rename_i hlen
              exact nomatch hnone.symm.trans hlen
          · rw [settle_of_short hscan, htexts, List.append_nil]

theorem Succeeds.push_eq (h : Succeeds emit) (decoder : Utf8ConsoleDecoder) (bytes : Bytes)
    (state : σ) :
    ∃ texts, decoder.push emit bytes state =
        (.ok (), ⟨(utf8.settle replacement.bytes (decoder.pending ++ bytes)).2⟩,
          emitAll emit texts state) ∧
      texts.flatMap Str.bytes = (utf8.settle replacement.bytes (decoder.pending ++ bytes)).1 :=
  h.pushLoop_eq (decoder.pending ++ bytes) state

/-- The chunks together are decoded like their concatenation. -/
theorem Succeeds.pushAll_eq (h : Succeeds emit) (decoder : Utf8ConsoleDecoder)
    (hpending : utf8.scan decoder.pending = .short) (chunks : List Bytes) (state : σ) :
    ∃ texts, decoder.pushAll emit chunks state =
        (.ok (), ⟨(utf8.settle replacement.bytes (decoder.pending ++ chunks.flatten)).2⟩,
          emitAll emit texts state) ∧
      texts.flatMap Str.bytes =
        (utf8.settle replacement.bytes (decoder.pending ++ chunks.flatten)).1 := by
  induction chunks generalizing decoder state with
  | nil =>
      refine ⟨[], ?_, ?_⟩
      · rw [List.flatten_nil, List.append_nil, settle_of_short hpending]
        rfl
      · rw [List.flatten_nil, List.append_nil, settle_of_short hpending]
        rfl
  | cons chunk chunks ih =>
      obtain ⟨texts, hpush, htexts⟩ := h.push_eq decoder chunk state
      obtain ⟨more, hmore, hmoreTexts⟩ := ih
        ⟨(utf8.settle replacement.bytes (decoder.pending ++ chunk)).2⟩ (scan_settle _ _)
        (emitAll emit texts state)
      refine ⟨texts ++ more, ?_, ?_⟩
      · rw [Utf8ConsoleDecoder.pushAll, hpush]
        dsimp only
        rw [hmore, List.flatten_cons, ← List.append_assoc,
          settle_append _ (decoder.pending ++ chunk), emitAll_append]
      · rw [List.flatMap_append, htexts, hmoreTexts, List.flatten_cons, ← List.append_assoc,
          settle_append _ (decoder.pending ++ chunk)]

theorem pending_of_short {pending : Bytes} (h : utf8.scan pending = .short) :
    pending.length ≤ 3 ∧
      ∃ c : Char, pending <+: String.utf8EncodeChar c ∧ pending ≠ String.utf8EncodeChar c := by
  by_cases hempty : pending = []
  · subst hempty
    exact ⟨Nat.zero_le _, Char.ofNat 65, List.nil_prefix, by decide⟩
  · have hincomplete := (scan_eq_short_iff hempty).mp h
    exact ⟨length_le_of_incomplete hincomplete, incomplete_iff.mp hincomplete⟩

/-- However the bytes come in chunks, the texts that are emitted are together what
`String::from_utf8_lossy` makes of all bytes, and between two chunks at most the start of
one character is pending. -/
theorem pushAll_finish_lossy (hemit : Succeeds emit) (chunks : List Bytes) (state : σ) :
    (∃ texts decoder finished,
      Utf8ConsoleDecoder.pushAll emit ⟨[]⟩ chunks state =
        (.ok (), decoder, emitAll emit texts state) ∧
      decoder.finish emit (emitAll emit texts state) =
        (.ok (), ⟨[]⟩, emitAll emit (texts ++ finished) state) ∧
      (texts ++ finished).flatMap Str.bytes = (fromUtf8Lossy chunks.flatten).bytes) ∧
    ∀ (decoder : Utf8ConsoleDecoder) (chunk : Bytes) (state : σ), ∃ pending texts,
      decoder.push emit chunk state = (.ok (), ⟨pending⟩, emitAll emit texts state) ∧
      pending.length ≤ 3 ∧
      ∃ c : Char, pending <+: String.utf8EncodeChar c ∧ pending ≠ String.utf8EncodeChar c := by
  refine ⟨?_, ?_⟩
  · obtain ⟨texts, hpush, htexts⟩ := hemit.pushAll_eq ⟨[]⟩ rfl chunks state
    rw [List.nil_append] at hpush htexts
    have hlossy := lossy_eq_settle utf8 replacement.bytes chunks.flatten
    by_cases hempty : (utf8.settle replacement.bytes chunks.flatten).2.isEmpty
    · refine ⟨texts, _, [], hpush, ?_, ?_⟩
      · rw [Utf8ConsoleDecoder.finish, if_pos hempty, List.append_nil,
          List.isEmpty_iff.mp hempty]
      · rw [if_pos hempty] at hlossy
        rw [List.append_nil, htexts, bytes_fromUtf8Lossy, hlossy, List.append_nil]
    · refine ⟨texts, _, [fromUtf8Lossy (utf8.settle replacement.bytes chunks.flatten).2], hpush,
        ?_, ?_⟩
      · rw [Utf8ConsoleDecoder.finish, if_neg hempty]
        simp only [hemit.emit_eq, emitAll_append]
      · have hrest : utf8.lossy replacement.bytes
            (utf8.settle replacement.bytes chunks.flatten).2 = replacement.bytes := by
          rw [lossy_of_short (scan_settle _ _), if_neg hempty]
        rw [if_neg hempty] at hlossy
        rw [List.flatMap_append, htexts, List.flatMap_singleton, bytes_fromUtf8Lossy,
          bytes_fromUtf8Lossy, hlossy, hrest]
  · intro decoder chunk state
    obtain ⟨texts, hpush, -⟩ := hemit.push_eq decoder chunk state
    exact ⟨_, texts, hpush, pending_of_short (scan_settle _ _)⟩

/-- Texts are collected. -/
def collect : Emit Unit (List Bytes) := fun text state => (.ok (), state ++ [text.bytes])

theorem pushAll_finish_lossy_split :
    ∃ texts decoder finished,
      Utf8ConsoleDecoder.pushAll collect ⟨[]⟩ [[0x61, 0xE2, 0x82], [0xAC, 0xFF], [0xE2]] [] =
        (.ok (), decoder, emitAll collect texts []) ∧
      decoder.finish collect (emitAll collect texts []) =
        (.ok (), ⟨[]⟩, emitAll collect (texts ++ finished) []) ∧
      (texts ++ finished).flatMap Str.bytes =
        (fromUtf8Lossy [0x61, 0xE2, 0x82, 0xAC, 0xFF, 0xE2]).bytes :=
  have hcollect : Succeeds collect := fun _ _ => rfl
  (pushAll_finish_lossy hcollect [[0x61, 0xE2, 0x82], [0xAC, 0xFF], [0xE2]] []).1

end Decoding

end SideWire.ConsoleOutput
