import SideWire.PromptTail

namespace SideWire.PromptFraming

open SideWire.ByteString
open SideWire.SequenceCode
open SideWire.Utf8
open SideWire.ConsoleOutput
open SideWire.PromptTail

/-- U+FFFD as a character. -/
def replacementChar : Char := Char.ofNat 0xFFFD

/-- Where the payloads end in a stream, the first of them starting at `start`. -/
def borders (start : Nat) : List Bytes → List Nat
  | [] => []
  | payload :: payloads =>
      (start + payload.length) :: borders (start + payload.length) payloads

/-- Each character of a text that starts at `offset`, and whether a border lies inside it. -/
def cutFlags (borders : List Nat) (offset : Nat) : Text → List (Char × Bool)
  | [] => []
  | c :: text =>
      (c, borders.any fun border => decide (offset < border ∧ border < offset + c.utf8Size)) ::
        cutFlags borders (offset + c.utf8Size) text

/-- What cut characters are decoded to: each to two replacement characters or more. -/
inductive Decoded : List (Char × Bool) → Text → Prop
  | nil : Decoded [] []
  | whole {c : Char} {flags : List (Char × Bool)} {text : Text} :
      Decoded flags text → Decoded ((c, false) :: flags) (c :: text)
  | cut {c : Char} {n : Nat} {flags : List (Char × Bool)} {text : Text} :
      isBreak c = false → 2 ≤ n → Decoded flags text →
      Decoded ((c, true) :: flags) (List.replicate n replacementChar ++ text)

section Flags

variable {flags more : List (Char × Bool)} {text rest : Text} {offset : Nat}

theorem map_cutFlags (borders : List Nat) (offset : Nat) (text : Text) :
    (cutFlags borders offset text).map Prod.fst = text := by
  induction text generalizing offset with
  | nil => rfl
  | cons c text ih => rw [cutFlags, List.map_cons, ih]

theorem cutFlags_append (borders : List Nat) (offset : Nat) (text rest : Text) :
    cutFlags borders offset (text ++ rest) = cutFlags borders offset text ++
      cutFlags borders (offset + (intoBytes text).length) rest := by
  induction text generalizing offset with
  | nil => rw [intoBytes_nil]; rfl
  | cons c text ih =>
      rw [List.cons_append, cutFlags, cutFlags, ih, length_intoBytes_cons, Nat.add_assoc,
        List.cons_append]

theorem cutFlags_of_le {found : List Nat}
    (h : ∀ border ∈ found, offset + (intoBytes text).length ≤ border) :
    cutFlags found offset text = text.map fun c => (c, false) := by
  induction text generalizing offset with
  | nil => rfl
  | cons c text ih =>
      rw [length_intoBytes_cons] at h
      have hfirst : (found.any fun border =>
          decide (offset < border ∧ border < offset + c.utf8Size)) = false := by
        rw [List.any_eq_false]
        intro border hborder
        have hle := h border hborder
        simp only [decide_eq_true_eq]
        omega
      rw [cutFlags, hfirst, List.map_cons, ih]
      intro border hborder
      have hle := h border hborder
      omega

theorem cutFlags_cons_of_le {border : Nat} (h : border ≤ offset) (found : List Nat)
    (text : Text) : cutFlags (border :: found) offset text = cutFlags found offset text := by
  induction text generalizing offset with
  | nil => rfl
  | cons c text ih =>
      have hfirst : decide (offset < border ∧ border < offset + c.utf8Size) = false := by
        rw [decide_eq_false_iff_not]
        omega
      rw [cutFlags, cutFlags, List.any_cons, hfirst, Bool.false_or, ih (by omega)]

theorem le_of_mem_borders {start : Nat} {payloads : List Bytes} :
    ∀ border ∈ borders start payloads, start ≤ border := by
  induction payloads generalizing start with
  | nil => simp [borders]
  | cons payload payloads ih =>
      intro border hborder
      rcases List.mem_cons.mp hborder with rfl | hborder
      · exact Nat.le_add_right _ _
      · exact Nat.le_trans (Nat.le_add_right _ _) (ih border hborder)

theorem decoded_map (text : Text) : Decoded (text.map fun c => (c, false)) text := by
  induction text with
  | nil => exact .nil
  | cons c text ih => exact .whole ih

theorem Decoded.append (h : Decoded flags text) (hmore : Decoded more rest) :
    Decoded (flags ++ more) (text ++ rest) := by
  induction h with
  | nil => exact hmore
  | whole _ ih => exact .whole ih
  | cut hbreak hn _ ih =>
      rw [List.append_assoc]
      exact .cut hbreak hn ih

end Flags

section Chunks

/-- The bytes of a text are cut between two characters or inside one. -/
theorem intoBytes_eq_append {text : Text} {front back : Bytes}
    (h : intoBytes text = front ++ back) :
    (∃ start rest, text = start ++ rest ∧ front = intoBytes start ∧ back = intoBytes rest) ∨
      ∃ start c rest q more, text = start ++ c :: rest ∧ front = intoBytes start ++ q ∧
        back = more ++ intoBytes rest ∧ String.utf8EncodeChar c = q ++ more ∧ q ≠ [] ∧
        more ≠ [] := by
  induction text generalizing front with
  | nil =>
      obtain ⟨rfl, rfl⟩ := List.append_eq_nil_iff.mp (h.symm.trans intoBytes_nil)
      exact .inl ⟨[], [], rfl, intoBytes_nil.symm, intoBytes_nil.symm⟩
  | cons c text ih =>
      rw [intoBytes_cons] at h
      rcases List.append_eq_append_iff.mp h with ⟨front', rfl, hrest⟩ | ⟨more, hchar, rfl⟩
      · rcases ih hrest with ⟨start, rest, rfl, rfl, rfl⟩ |
          ⟨start, d, rest, q, more, rfl, rfl, rfl, hd, hq, hmore⟩
        · exact .inl ⟨c :: start, rest, rfl, (intoBytes_cons c start).symm, rfl⟩
        · refine .inr ⟨c :: start, d, rest, q, more, rfl, ?_, rfl, hd, hq, hmore⟩
          rw [intoBytes_cons, List.append_assoc]
      · by_cases hfront : front = []
        · subst hfront
          refine .inl ⟨[], c :: text, rfl, intoBytes_nil.symm, ?_⟩
          rw [intoBytes_cons, hchar, List.nil_append]
        · by_cases hmore : more = []
          · subst hmore
            refine .inl ⟨[c], text, rfl, ?_, List.nil_append _⟩
            rw [intoBytes_cons, hchar, intoBytes_nil, List.append_nil, List.append_nil]
          · refine .inr ⟨[], c, text, front, more, rfl, ?_, rfl, hchar, hfront, hmore⟩
            rw [intoBytes_nil, List.nil_append]

theorem intoBytes_replacementChar (n : Nat) :
    intoBytes (List.replicate n replacementChar) =
      (List.replicate n replacement.bytes).flatten := by
  induction n with
  | zero => exact intoBytes_nil
  | succ n ih =>
      have hbytes : String.utf8EncodeChar replacementChar = replacement.bytes := by decide
      rw [List.replicate_succ, List.replicate_succ, intoBytes_cons, ih, hbytes, List.flatten_cons]

theorem lossy_tails {bytes : Bytes} (h : ∀ byte ∈ bytes, tail byte = true) (more : Bytes) :
    utf8.lossy replacement.bytes (bytes ++ more) =
      intoBytes (List.replicate bytes.length replacementChar) ++
        utf8.lossy replacement.bytes more := by
  rw [intoBytes_replacementChar]
  induction bytes with
  | nil => rfl
  | cons byte bytes ih =>
      obtain ⟨hbyte, hbytes⟩ := List.forall_mem_cons.mp h
      rw [List.cons_append, lossy_tail hbyte, ih hbytes, List.length_cons, List.replicate_succ,
        List.flatten_cons, List.append_assoc]

theorem lossy_intoBytes (text : Text) (mark more : Bytes) :
    utf8.lossy mark (intoBytes text ++ more) = intoBytes text ++ utf8.lossy mark more := by
  induction text with
  | nil => rw [intoBytes_nil]; rfl
  | cons c text ih => rw [intoBytes_cons, List.append_assoc, lossy_char, ih, List.append_assoc]

theorem lossy_nil (mark : Bytes) : utf8.lossy mark [] = [] := lossy_of_short rfl

theorem lossy_start {c : Char} {q more : Bytes} (hc : String.utf8EncodeChar c = q ++ more)
    (hq : q ≠ []) (hmore : more ≠ []) (mark : Bytes) : utf8.lossy mark q = mark :=
  lossy_of_incomplete hq ⟨more, hmore, word_iff.mpr ⟨c, hc⟩⟩ mark

theorem tails_of_start {c : Char} {q more : Bytes} (hc : String.utf8EncodeChar c = q ++ more)
    (hq : q ≠ []) (hmore : more ≠ []) :
    isBreak c = false ∧ ∀ byte ∈ more, tail byte = true := by
  constructor
  · rcases isBreakByte_utf8EncodeChar c with ⟨-, byte, hbytes, -⟩ | ⟨hbreak, -⟩
    · have hlen := congrArg List.length (hc.symm.trans hbytes)
      have hpos := List.length_pos_iff.mpr hq
      have hpos' := List.length_pos_iff.mpr hmore
      rw [List.length_append, List.length_singleton] at hlen
      omega
    · exact hbreak
  · obtain ⟨first, rest, hbytes, -, hrest⟩ := exists_first c
    obtain ⟨b, q, rfl⟩ := List.exists_cons_of_ne_nil hq
    obtain ⟨-, rfl⟩ := List.cons.inj (hbytes.symm.trans hc)
    exact fun byte hbyte => hrest byte (List.mem_append_right q hbyte)

/-- What a payload is decoded to that begins with the rest of a character. -/
theorem bytes_fromUtf8Lossy_append {held : Bytes} (hheld : ∀ byte ∈ held, tail byte = true)
    (text : Text) (q : Bytes) :
    (fromUtf8Lossy (held ++ (intoBytes text ++ q))).bytes =
      intoBytes (List.replicate held.length replacementChar ++ text) ++
        utf8.lossy replacement.bytes q := by
  rw [bytes_fromUtf8Lossy, lossy_tails hheld, lossy_intoBytes, intoBytes_append,
    List.append_assoc]

theorem exists_decoded_of_flatten (payloads : List Bytes) (start : Nat) {held : Bytes}
    {text : Text} (h : payloads.flatten = held ++ intoBytes text)
    (hheld : ∀ byte ∈ held, tail byte = true) :
    ∃ decoded, Decoded (cutFlags (borders start payloads) (start + held.length) text) decoded ∧
      (payloads.map fun payload => (fromUtf8Lossy payload).bytes).flatten =
        intoBytes (List.replicate held.length replacementChar ++ decoded) := by
  induction payloads generalizing start held text with
  | nil =>
      obtain ⟨rfl, htext⟩ := List.append_eq_nil_iff.mp h.symm
      obtain rfl : text = [] := intoBytes_inj (htext.trans intoBytes_nil.symm)
      exact ⟨[], .nil, intoBytes_nil.symm⟩
  | cons payload payloads ih =>
      rw [List.flatten_cons] at h
      rw [List.map_cons, List.flatten_cons, borders]
      rcases List.append_eq_append_iff.mp h with ⟨held', rfl, hrest⟩ | ⟨front, rfl, htext⟩
      · -- the payload ends before the character does
        obtain ⟨hpayload, hheld'⟩ := List.forall_mem_append.mp hheld
        obtain ⟨decoded, hdecoded, hbytes⟩ := ih (start + payload.length) hrest hheld'
        refine ⟨decoded, ?_, ?_⟩
        · rw [List.length_append, ← Nat.add_assoc,
            cutFlags_cons_of_le (Nat.le_add_right _ _)]
          exact hdecoded
        · have hfirst := bytes_fromUtf8Lossy_append hpayload [] []
          rw [intoBytes_nil, List.append_nil, List.append_nil, lossy_nil, List.append_nil,
            List.append_nil] at hfirst
          rw [hfirst, hbytes, ← intoBytes_append, List.length_append, List.replicate_add,
            List.append_assoc]
      · have hborders : ∀ border ∈ (start + (held ++ front).length) ::
            borders (start + (held ++ front).length) payloads,
            start + (held ++ front).length ≤ border :=
          List.forall_mem_cons.mpr ⟨Nat.le_refl _, le_of_mem_borders⟩
        rcases intoBytes_eq_append htext with ⟨first, rest, rfl, rfl, hrest⟩ |
          ⟨first, c, rest, q, more, rfl, rfl, hrest, hc, hq, hmore⟩
        · -- it ends between two characters
          obtain ⟨decoded, hdecoded, hbytes⟩ :=
            ih (start + (held ++ intoBytes first).length) (hrest.trans (List.nil_append _).symm)
              (by simp)
          have hend : start + held.length + (intoBytes first).length =
              start + (held ++ intoBytes first).length := by
            rw [List.length_append, Nat.add_assoc]
          refine ⟨first ++ decoded, ?_, ?_⟩
          · rw [cutFlags_append, hend, cutFlags_cons_of_le (Nat.le_refl _),
              cutFlags_of_le (by rwa [hend])]
            exact (decoded_map first).append hdecoded
          · have hpayload := bytes_fromUtf8Lossy_append hheld first []
            rw [List.append_nil, lossy_nil, List.append_nil] at hpayload
            rw [hpayload, hbytes, ← intoBytes_append, List.append_assoc]
            rfl
        · obtain ⟨hbreak, htails⟩ := tails_of_start hc hq hmore
          obtain ⟨decoded, hdecoded, hbytes⟩ :=
            ih (start + (held ++ (intoBytes first ++ q)).length) hrest htails
          have hsize : c.utf8Size = q.length + more.length := by
            rw [← String.length_utf8EncodeChar, hc, List.length_append]
          have hpos := List.length_pos_iff.mpr hq
          have hpos' := List.length_pos_iff.mpr hmore
          have hend : start + held.length + (intoBytes first).length + q.length =
              start + (held ++ (intoBytes first ++ q)).length := by
            simp only [List.length_append]
            omega
          refine ⟨first ++ (List.replicate (1 + more.length) replacementChar ++ decoded), ?_, ?_⟩
          · generalize start + (held ++ (intoBytes first ++ q)).length = border at *
            have hfirst : cutFlags (border :: borders border payloads) (start + held.length) first =
                first.map fun c => (c, false) :=
              cutFlags_of_le fun other hother => Nat.le_trans (by omega) (hborders other hother)
            have hcut : ((border :: borders border payloads).any fun other =>
                decide (start + held.length + (intoBytes first).length < other ∧
                  other < start + held.length + (intoBytes first).length + c.utf8Size)) = true := by
              rw [List.any_cons, Bool.or_eq_true]
              exact .inl (decide_eq_true (by omega))
            have hnext : start + held.length + (intoBytes first).length + c.utf8Size =
                border + more.length := by
              omega
            rw [cutFlags_append, hfirst, cutFlags, hcut, hnext,
              cutFlags_cons_of_le (Nat.le_add_right _ _)]
            exact (decoded_map first).append (.cut hbreak (by omega) hdecoded)
          · have hmark : replacement.bytes = intoBytes (List.replicate 1 replacementChar) := by
              rw [intoBytes_replacementChar]
              rfl
            rw [bytes_fromUtf8Lossy_append hheld, lossy_start hc hq hmore, hmark, hbytes,
              ← intoBytes_append, ← intoBytes_append, List.replicate_add]
            simp only [List.append_assoc]

end Chunks

/-! The last line, and what stands in it behind the last cut character. -/

def lastFlags (flags : List (Char × Bool)) : List (Char × Bool) :=
  flags.rtakeWhile fun flag => !isBreak flag.1

def behindCuts (flags : List (Char × Bool)) : Text :=
  (flags.rtakeWhile fun flag => !flag.2).map Prod.fst

section LastLine

variable {flags more : List (Char × Bool)} {text : Text}

theorem Decoded.split (h : Decoded (flags ++ more) text) :
    ∃ front back, text = front ++ back ∧ Decoded flags front ∧ Decoded more back := by
  induction flags generalizing text with
  | nil => exact ⟨[], text, rfl, .nil, h⟩
  | cons flag flags ih =>
      cases h with
      | whole hrest =>
          obtain ⟨front, back, rfl, hfront, hback⟩ := ih hrest
          exact ⟨_ :: front, back, rfl, .whole hfront, hback⟩
      | cut hbreak hn hrest =>
          obtain ⟨front, back, rfl, hfront, hback⟩ := ih hrest
          exact ⟨_ ++ front, back, (List.append_assoc _ _ _).symm, .cut hbreak hn hfront, hback⟩

theorem Decoded.eq_map (h : Decoded flags text) (hwhole : ∀ flag ∈ flags, flag.2 = false) :
    text = flags.map Prod.fst := by
  induction h with
  | nil => rfl
  | whole _ ih => rw [List.map_cons, ← ih fun flag hflag => hwhole flag (.tail _ hflag)]
  | cut => exact nomatch hwhole _ List.mem_cons_self

theorem Decoded.forall_not_isBreak (h : Decoded flags text)
    (hflags : ∀ flag ∈ flags, isBreak flag.1 = false) : ∀ c ∈ text, isBreak c = false := by
  induction h with
  | nil => simp
  | whole _ ih =>
      obtain ⟨hc, hflags⟩ := List.forall_mem_cons.mp hflags
      exact List.forall_mem_cons.mpr ⟨hc, ih hflags⟩
  | cut _ _ _ ih =>
      obtain ⟨-, hflags⟩ := List.forall_mem_cons.mp hflags
      refine List.forall_mem_append.mpr ⟨?_, ih hflags⟩
      intro c hc
      rw [List.eq_of_mem_replicate hc]
      decide

theorem Decoded.lastLine (h : Decoded flags text) :
    Decoded (lastFlags flags) (lastLine text) := by
  have hsplit : flags.rdropWhile (fun flag => !isBreak flag.1) ++ lastFlags flags = flags :=
    List.rdropWhile_append_rtakeWhile
  rw [← hsplit] at h
  obtain ⟨front, back, rfl, hfront, hback⟩ := h.split
  have hnone : ∀ c ∈ back, isBreak c = false := by
    apply hback.forall_not_isBreak
    intro flag hflag
    simpa using List.mem_rtakeWhile_imp hflag
  have hany : back.any isBreak = false := by
    rw [List.any_eq_false]
    exact fun c hc => by simp [hnone c hc]
  have hstart : PromptTail.lastLine front = [] := by
    rcases List.eq_nil_or_concat (flags.rdropWhile fun flag => !isBreak flag.1) with
      hnil | ⟨init, last, hconcat⟩
    · rw [hnil] at hfront
      cases hfront
      rfl
    · rw [List.concat_eq_append] at hconcat
      have hlast : isBreak last.1 = true := by
        have hend := List.rdropWhile_last_not (fun flag : Char × Bool => !isBreak flag.1) flags
          (by rw [hconcat]; simp)
        simpa [hconcat] using hend
      rw [hconcat] at hfront
      obtain ⟨first, end', rfl, -, hend⟩ := hfront.split
      cases hend with
      | whole hrest =>
          cases hrest
          rw [PromptTail.lastLine, List.rtakeWhile_concat_neg]
          simpa using hlast
      | cut hbreak => cases hbreak.symm.trans hlast
  rw [lastLine_append, hany, hstart]
  exact hback

theorem map_lastFlags (flags : List (Char × Bool)) :
    (lastFlags flags).map Prod.fst = lastLine (flags.map Prod.fst) := by
  induction flags using List.reverseRecOn with
  | nil => rfl
  | append_singleton flags flag ih =>
      rw [lastFlags, lastLine, List.map_append, List.map_singleton]
      cases hbreak : isBreak flag.1 with
      | true =>
          rw [List.rtakeWhile_concat_neg _ _ _ (by simp [hbreak]),
            List.rtakeWhile_concat_neg _ _ _ (by simp [hbreak])]
          rfl
      | false =>
          rw [List.rtakeWhile_concat_pos _ _ _ (by simp [hbreak]),
            List.rtakeWhile_concat_pos _ _ _ (by simp [hbreak]), List.map_append]
          exact congrArg (· ++ [flag.1]) ih

/-- A run of replacement characters is decoded to one that is no shorter. -/
theorem Decoded.replicate_suffix (h : Decoded flags text) {n : Nat}
    (hn : List.replicate n replacementChar <:+ flags.map Prod.fst) :
    List.replicate n replacementChar <:+ text := by
  obtain ⟨start, hstart⟩ := hn
  obtain ⟨first, last, rfl, -, hlast⟩ := List.map_eq_append_iff.mp hstart.symm
  obtain ⟨front, back, rfl, -, hback⟩ := h.split
  have hrun : ∀ {flags : List (Char × Bool)} {text : Text}, Decoded flags text →
      (∀ flag ∈ flags, flag.1 = replacementChar) →
      ∃ k, text = List.replicate (flags.length + k) replacementChar := by
    intro flags text h
    induction h with
    | nil => exact fun _ => ⟨0, rfl⟩
    | whole _ ih =>
        intro hall
        obtain ⟨hc, hall⟩ := List.forall_mem_cons.mp hall
        obtain ⟨k, rfl⟩ := ih hall
        refine ⟨k, ?_⟩
        rw [List.length_cons, Nat.add_right_comm, List.replicate_succ]
        exact congrArg (· :: _) hc
    | @cut c m flags text _ hm _ ih =>
        intro hall
        obtain ⟨-, hall⟩ := List.forall_mem_cons.mp hall
        obtain ⟨k, rfl⟩ := ih hall
        refine ⟨m - 1 + k, ?_⟩
        rw [← List.replicate_add, List.length_cons]
        congr 1
        omega
  obtain ⟨k, rfl⟩ := hrun hback fun flag hflag => by
    have hmem := List.mem_map_of_mem (f := Prod.fst) hflag
    rw [hlast] at hmem
    exact List.eq_of_mem_replicate hmem
  have hlen : last.length = n := by
    rw [← List.length_map Prod.fst, hlast, List.length_replicate]
  rw [hlen, Nat.add_comm, List.replicate_add, ← List.append_assoc]
  exact List.suffix_append _ _

end LastLine

section Fill

variable {flags : List (Char × Bool)} {text decoded behind : Text}

theorem length_fill (n : Nat) (behind : Text) :
    (intoBytes (List.replicate n replacementChar ++ behind)).length =
      3 * n + (intoBytes behind).length := by
  induction n with
  | zero => simp
  | succ n ih =>
      have hsize : replacementChar.utf8Size = 3 := by decide
      rw [List.replicate_succ, List.cons_append, length_intoBytes_cons, ih, hsize]
      omega

/-- As many replacement characters as fit into the prompt in front of a text. -/
def fillCount (behind : Text) : Nat := (promptLimit - (intoBytes behind).length) / 3

theorem fitting_fill (h : (intoBytes behind).length ≤ promptLimit) (front : Text) :
    fitting (front ++ (List.replicate (fillCount behind + 1) replacementChar ++ behind)) =
      List.replicate (fillCount behind) replacementChar ++ behind := by
  have hlong : promptLimit < (intoBytes (replacementChar ::
      (List.replicate (fillCount behind) replacementChar ++ behind))).length := by
    rw [← List.cons_append, ← List.replicate_succ, length_fill, fillCount]
    omega
  rw [List.replicate_succ, List.cons_append, fitting_append hlong, fitting_of_le]
  rw [length_fill, fillCount]
  omega

theorem fitting_append_of_lt (h : promptLimit < (intoBytes behind).length) (front : Text) :
    fitting (front ++ behind) = fitting behind := by
  cases behind with
  | nil => simp at h
  | cons c behind => rw [fitting_append h, fitting_cons_of_lt h]

theorem Decoded.split_behindCuts (h : Decoded flags decoded)
    (hcut : ∃ flag ∈ flags, flag.2 = true) :
    ∃ start c front n, flags.map Prod.fst = start.map Prod.fst ++ c :: behindCuts flags ∧
      decoded = front ++ (List.replicate n replacementChar ++ behindCuts flags) ∧
      2 ≤ n ∧ Decoded start front := by
  have hsplit : flags.rdropWhile (fun flag => !flag.2) ++ flags.rtakeWhile (fun flag => !flag.2) =
      flags := List.rdropWhile_append_rtakeWhile
  have hstart : flags.rdropWhile (fun flag => !flag.2) ≠ [] := by
    rw [ne_eq, List.rdropWhile_eq_nil_iff]
    intro hall
    obtain ⟨flag, hflag, htrue⟩ := hcut
    simpa [htrue] using hall flag hflag
  have hend := List.rdropWhile_last_not _ _ hstart
  have hwhole : ∀ flag ∈ flags.rtakeWhile (fun flag => !flag.2), flag.2 = false := by
    intro flag hflag
    simpa using List.mem_rtakeWhile_imp hflag
  rcases List.eq_nil_or_concat (flags.rdropWhile fun flag => !flag.2) with
    hnil | ⟨start, ⟨c, cut⟩, hconcat⟩
  · exact absurd hnil hstart
  · rw [List.concat_eq_append] at hconcat
    obtain rfl : cut = true := by simpa [hconcat] using hend
    have hflags : flags = start ++ (c, true) :: flags.rtakeWhile (fun flag => !flag.2) := by
      rw [← List.singleton_append, ← List.append_assoc, ← hconcat, hsplit]
    rw [hflags] at h
    obtain ⟨front, back, rfl, hfront, hback⟩ := h.split
    cases hback with
    | @cut _ n _ rest _ hn hrest =>
        refine ⟨start, c, front, n, ?_, ?_, hn, hfront⟩
        · conv_lhs => rw [hflags]
          rw [List.map_append, List.map_cons]
          rfl
        · rw [hrest.eq_map hwhole]
          rfl

/-- The run of replacement characters in front of what stands behind the last cut character
grows. -/
theorem Decoded.fill_suffix (h : Decoded flags decoded) (hcut : ∃ flag ∈ flags, flag.2 = true)
    {n : Nat} (hn : List.replicate n replacementChar ++ behindCuts flags <:+
      flags.map Prod.fst) :
    List.replicate (n + 1) replacementChar ++ behindCuts flags <:+ decoded := by
  obtain ⟨start, c, front, m, hflags, rfl, hm, hfront⟩ := h.split_behindCuts hcut
  rw [hflags] at hn
  have hrun : List.replicate (n - 1) replacementChar <:+ front := by
    apply hfront.replicate_suffix
    cases n with
    | zero => exact List.nil_suffix
    | succ n =>
        have hc : List.replicate (n + 1) replacementChar ++ behindCuts flags <:+
            (start.map Prod.fst ++ [c]) ++ behindCuts flags := by
          rwa [List.append_assoc]
        rw [List.suffix_append_self_iff, List.replicate_succ'] at hc
        obtain ⟨before, hbefore⟩ := hc
        rw [← List.append_assoc] at hbefore
        exact ⟨before, (List.append_inj' hbefore rfl).1⟩
  obtain ⟨before, rfl⟩ := hrun
  obtain ⟨k, hk⟩ : ∃ k, n - 1 + m = k + (n + 1) := ⟨n - 1 + m - (n + 1), by omega⟩
  have hjoin : before ++ List.replicate (n - 1) replacementChar ++
        (List.replicate m replacementChar ++ behindCuts flags) =
      before ++ List.replicate k replacementChar ++
        (List.replicate (n + 1) replacementChar ++ behindCuts flags) := by
    simp only [List.append_assoc, ← List.append_assoc (List.replicate _ _) (List.replicate _ _),
      ← List.replicate_add, hk]
  rw [hjoin]
  exact List.suffix_append _ _

/-- The prompts agree where no character is cut, or where what stands behind the last cut one
is filled up with replacement characters. -/
theorem Decoded.fitting_eq_iff (h : Decoded flags decoded) :
    fitting decoded = fitting (flags.map Prod.fst) ↔
      (∀ flag ∈ flags, flag.2 = false) ∨
        fitting (flags.map Prod.fst) =
          fitting (List.replicate promptLimit replacementChar ++ behindCuts flags) := by
  by_cases hwhole : ∀ flag ∈ flags, flag.2 = false
  · rw [h.eq_map hwhole]
    exact ⟨fun _ => .inl hwhole, fun _ => rfl⟩
  · have hcut : ∃ flag ∈ flags, flag.2 = true := by simpa using hwhole
    obtain ⟨start, c, front, n, hflags, hdecoded, hn, -⟩ := h.split_behindCuts hcut
    by_cases hlong : promptLimit < (intoBytes (behindCuts flags)).length
    · -- nothing in front of it counts
      have hleft : fitting decoded = fitting (behindCuts flags) := by
        rw [hdecoded, ← List.append_assoc, fitting_append_of_lt hlong]
      have hright : fitting (flags.map Prod.fst) = fitting (behindCuts flags) := by
        rw [hflags, ← List.singleton_append, ← List.append_assoc, fitting_append_of_lt hlong]
      rw [hleft, hright, fitting_append_of_lt hlong]
      simp
    · rw [Nat.not_lt] at hlong
      have hfill : fitting (List.replicate promptLimit replacementChar ++ behindCuts flags) =
          List.replicate (fillCount (behindCuts flags)) replacementChar ++ behindCuts flags := by
        obtain ⟨k, hk⟩ : ∃ k, promptLimit = k + (fillCount (behindCuts flags) + 1) :=
          ⟨promptLimit - (fillCount (behindCuts flags) + 1), by
            rw [fillCount, promptLimit]
            omega⟩
        conv_lhs => rw [hk, List.replicate_add, List.append_assoc]
        exact fitting_fill hlong _
      have hof : List.replicate (fillCount (behindCuts flags) + 1) replacementChar ++
            behindCuts flags <:+ decoded →
          fitting decoded =
            List.replicate (fillCount (behindCuts flags)) replacementChar ++ behindCuts flags := by
        rintro ⟨before, hbefore⟩
        rw [← hbefore, fitting_fill hlong]
      rw [hfill]
      constructor
      · intro heq
        -- the run in the decoded line grows until it fills the prompt
        have hgrow : ∀ n ≤ fillCount (behindCuts flags) + 1,
            List.replicate n replacementChar ++ behindCuts flags <:+ decoded := by
          intro n
          induction n with
          | zero =>
              intro _
              rw [hdecoded, ← List.append_assoc]
              exact List.suffix_append _ _
          | succ n ih =>
              intro hle
              have hfits : (intoBytes (List.replicate n replacementChar ++
                  behindCuts flags)).length ≤ promptLimit := by
                rw [length_fill]
                rw [fillCount] at hle
                omega
              have hsuffix := suffix_fitting (ih (by omega)) hfits
              rw [heq] at hsuffix
              exact h.fill_suffix hcut (hsuffix.trans (fitting_suffix _))
        exact .inr (heq.symm.trans (hof (hgrow _ le_rfl)))
      · intro hchoice
        have heq := hchoice.resolve_left hwhole
        have hsuffix := fitting_suffix (flags.map Prod.fst)
        rw [heq] at hsuffix ⊢
        exact hof (h.fill_suffix hcut hsuffix)

end Fill

/-- No payload ends inside a character of the last line, or what stands behind the last such
character is filled up with replacement characters to what is to be remembered. -/
def FramingFree (payloads : List Bytes) (text : Text) : Prop :=
  (∀ flag ∈ lastFlags (cutFlags (borders 0 payloads) 0 text), flag.2 = false) ∨
    fitting (lastLine text) = fitting (List.replicate promptLimit replacementChar ++
      behindCuts (lastFlags (cutFlags (borders 0 payloads) 0 text)))

/-- When the remembered prompt is that of the whole stream. -/
theorem foldl_updatePromptTail_eq_iff {payloads : List Bytes} {text : Text}
    (h : payloads.flatten = intoBytes text) :
    payloads.foldl updatePromptTail [] = intoBytes (fitting (lastLine text)) ↔
      FramingFree payloads text := by
  obtain ⟨decoded, hdecoded, hbytes⟩ :=
    exists_decoded_of_flatten payloads 0 (h.trans (List.nil_append _).symm) (by simp)
  rw [List.length_nil, Nat.add_zero] at hdecoded
  rw [foldl_updatePromptTail payloads hbytes]
  have hmap : (lastFlags (cutFlags (borders 0 payloads) 0 text)).map Prod.fst = lastLine text := by
    rw [map_lastFlags, map_cutFlags]
  have hiff := hdecoded.lastLine.fitting_eq_iff
  rw [hmap] at hiff
  rw [FramingFree, ← hiff]
  exact ⟨fun heq => intoBytes_inj heq, fun heq => congrArg intoBytes heq⟩

/-- A border in an earlier line does no harm. -/
theorem foldl_updatePromptTail_eq_iff_earlier :
    [[0xED], [0x95, 0x9C, 0x0A, 0x24]].foldl updatePromptTail [] =
      intoBytes (fitting (lastLine ['한', '\n', '$'])) := by
  have hstream : ([[0xED], [0x95, 0x9C, 0x0A, 0x24]] : List Bytes).flatten =
      intoBytes ['한', '\n', '$'] := by decide
  exact (foldl_updatePromptTail_eq_iff hstream).mpr (.inl (by decide))

/-- A character that comes in two payloads is remembered as three replacement characters. -/
theorem not_foldl_updatePromptTail_split :
    ([[0xED], [0x95, 0x9C]] : List Bytes).flatten = intoBytes ['한'] ∧
      [[0xED], [0x95, 0x9C]].foldl updatePromptTail [] ≠ intoBytes (fitting (lastLine ['한'])) := by
  refine ⟨by decide, ?_⟩
  have hchar : String.utf8EncodeChar '한' = [0xED] ++ [0x95, 0x9C] := by decide
  have hfirst : (fromUtf8Lossy [0xED]).bytes = replacement.bytes :=
    lossy_start hchar (by simp) (by simp) _
  have hsecond : (fromUtf8Lossy [0x95, 0x9C]).bytes =
      intoBytes (List.replicate 2 replacementChar) := by
    have htails := lossy_tails (tails_of_start hchar (by simp) (by simp)).2 []
    rwa [lossy_nil, List.append_nil, List.append_nil] at htails
  have hdecoded : ([[0xED], [0x95, 0x9C]].map fun payload =>
      (fromUtf8Lossy payload).bytes).flatten = intoBytes (List.replicate 3 replacementChar) := by
    rw [List.map_cons, List.map_singleton, hfirst, hsecond]
    decide
  rw [foldl_updatePromptTail _ hdecoded]
  intro heq
  exact absurd (intoBytes_inj heq) (by decide)

end SideWire.PromptFraming
