import Mathlib.Data.List.DropRight
import Mathlib.Data.List.Induction
import SideWire.ConsoleOutput

/-!
The prompt that the line client remembers of the output: each payload is decoded by itself,
while the payloads may be cut anywhere.
-/

namespace SideWire.PromptTail

open SideWire.ByteString
open SideWire.SequenceCode
open SideWire.Utf8
open SideWire.ConsoleOutput

abbrev Text := List Char

def promptLimit : Nat := 512

/-- `\r` and `\n`, which are single bytes and stand in no other character. -/
def isBreakByte (byte : UInt8) : Bool := byte == 0x0D || byte == 0x0A

/-- What stands behind the last break of a text that has one. -/
def afterLastBreak (text : Bytes) : Option Bytes :=
  if text.any isBreakByte then some (text.rtakeWhile fun byte => !isBreakByte byte) else none

/-- From the first character boundary on that leaves no more than the limit. -/
def truncate (text : Bytes) : Bytes :=
  if promptLimit < text.length then (text.drop (text.length - promptLimit)).dropWhile tail
  else text

/-- The remembered prompt after one more payload. -/
def updatePromptTail (promptTail payload : Bytes) : Bytes :=
  let text := (fromUtf8Lossy payload).bytes
  truncate (match afterLastBreak text with
    | some rest => rest
    | none => promptTail ++ text)

/-! The prompt of a whole text. -/

def isBreak (c : Char) : Bool := c == '\r' || c == '\n'

def lastLine (text : Text) : Text := text.rtakeWhile fun c => !isBreak c

/-- The longest part at the end of a text that fits into the limit. -/
def fitting : Text → Text
  | [] => []
  | c :: text =>
      if (intoBytes (c :: text)).length ≤ promptLimit then c :: text else fitting text

section Bytes

@[simp] theorem intoBytes_nil : intoBytes [] = [] := by rw [intoBytes_eq]; rfl

theorem intoBytes_cons (c : Char) (text : Text) :
    intoBytes (c :: text) = String.utf8EncodeChar c ++ intoBytes text := by
  rw [intoBytes_eq, intoBytes_eq, List.flatMap_cons]

theorem intoBytes_append (text more : Text) :
    intoBytes (text ++ more) = intoBytes text ++ intoBytes more := by
  rw [intoBytes_eq, intoBytes_eq, intoBytes_eq, List.flatMap_append]

theorem length_intoBytes_cons (c : Char) (text : Text) :
    (intoBytes (c :: text)).length = c.utf8Size + (intoBytes text).length := by
  rw [intoBytes_cons, List.length_append, String.length_utf8EncodeChar]

theorem dropWhile_tail_intoBytes (text : Text) :
    (intoBytes text).dropWhile tail = intoBytes text := by
  cases text with
  | nil => rw [intoBytes_nil]; rfl
  | cons c text =>
      obtain ⟨first, rest, hbytes, hfirst, -⟩ := exists_first c
      rw [intoBytes_cons, hbytes, List.cons_append,
        List.dropWhile_cons_of_neg (by simp [hfirst])]

theorem isBreakByte_utf8EncodeChar (c : Char) :
    (isBreak c = true ∧ ∃ byte, String.utf8EncodeChar c = [byte] ∧ isBreakByte byte = true) ∨
      isBreak c = false ∧ ∀ byte ∈ String.utf8EncodeChar c, isBreakByte byte = false := by
  by_cases hbreak : isBreak c = true
  · refine .inl ⟨hbreak, ?_⟩
    rw [isBreak, Bool.or_eq_true, beq_iff_eq, beq_iff_eq] at hbreak
    rcases hbreak with rfl | rfl
    · exact ⟨0x0D, by decide, by decide⟩
    · exact ⟨0x0A, by decide, by decide⟩
  · refine .inr ⟨by simpa using hbreak, ?_⟩
    intro byte hbyte
    rw [← Bool.not_eq_true]
    intro hbreakByte
    apply hbreak
    have hchar : ∀ d : Char, String.utf8EncodeChar d = [byte] → c = d := by
      intro d hd
      have hbytes : intoBytes [c] = intoBytes [d] := by
        rw [intoBytes_cons, intoBytes_cons, eq_singleton_of_mem hbyte, hd]
        rw [isBreakByte, Bool.or_eq_true, beq_iff_eq, beq_iff_eq] at hbreakByte
        rcases hbreakByte with rfl | rfl <;> decide
      exact (List.cons.inj (intoBytes_inj hbytes)).1
    rw [isBreakByte, Bool.or_eq_true, beq_iff_eq, beq_iff_eq] at hbreakByte
    rcases hbreakByte with rfl | rfl
    · rw [hchar '\r' (by decide)]
      rfl
    · rw [hchar '\n' (by decide)]
      rfl

end Bytes

section Lines

variable {text more : Text}

theorem rtakeWhile_append {α : Type*} {p : α → Bool} {xs ys : List α} :
    (xs ++ ys).rtakeWhile p = if ys.all p then xs.rtakeWhile p ++ ys else ys.rtakeWhile p := by
  split_ifs with hall
  · have hrev : ∀ y ∈ ys.reverse, p y = true := fun y hy =>
      List.all_eq_true.mp hall y (List.mem_reverse.mp hy)
    rw [List.rtakeWhile, List.rtakeWhile, List.reverse_append, List.takeWhile_append_of_pos hrev,
      List.reverse_append, List.reverse_reverse]
  · have hstop : (ys.reverse.takeWhile p).length ≠ ys.reverse.length := by
      intro hlen
      apply hall
      rw [List.all_eq_true]
      intro y hy
      have heq := (List.takeWhile_prefix p).eq_of_length hlen
      rw [← List.mem_reverse, ← heq] at hy
      exact List.mem_takeWhile_imp hy
    rw [List.rtakeWhile, List.rtakeWhile, List.reverse_append, List.takeWhile_append,
      if_neg hstop]

theorem lastLine_append (text more : Text) :
    lastLine (text ++ more) =
      if more.any isBreak then lastLine more else lastLine text ++ more := by
  have hall : (more.all fun c => !isBreak c) = !more.any isBreak := by
    rw [List.not_any_eq_all_not]
  rw [lastLine, rtakeWhile_append, hall]
  cases more.any isBreak <;> rfl

theorem any_isBreakByte_intoBytes (text : Text) :
    (intoBytes text).any isBreakByte = text.any isBreak := by
  induction text with
  | nil => rw [intoBytes_nil]; rfl
  | cons c text ih =>
      rw [intoBytes_cons, List.any_append, List.any_cons, ih]
      congr 1
      rcases isBreakByte_utf8EncodeChar c with ⟨hbreak, byte, hbytes, hbyte⟩ | ⟨hbreak, hbytes⟩
      · simp [hbreak, hbytes, hbyte]
      · rw [hbreak, List.any_eq_false]
        exact fun byte hbyte => by simp [hbytes byte hbyte]

theorem rtakeWhile_intoBytes (text : Text) :
    (intoBytes text).rtakeWhile (fun byte => !isBreakByte byte) = intoBytes (lastLine text) := by
  induction text using List.reverseRecOn with
  | nil => rfl
  | append_singleton text c ih =>
      have hall : ((intoBytes [c]).all fun byte => !isBreakByte byte) = !isBreak c := by
        rw [← List.not_any_eq_all_not, any_isBreakByte_intoBytes]
        simp
      rw [intoBytes_append, rtakeWhile_append, hall, lastLine_append, ih]
      rcases isBreakByte_utf8EncodeChar c with ⟨hbreak, byte, hbytes, hbyte⟩ | ⟨hbreak, -⟩
      · have hsingle : intoBytes [c] = [byte] := by
          rw [intoBytes_cons, hbytes, intoBytes_nil, List.append_nil]
        rw [hbreak, hsingle]
        simp [hbyte, hbreak, lastLine, List.rtakeWhile]
      · rw [hbreak]
        simp [hbreak, intoBytes_append]

theorem afterLastBreak_intoBytes (text : Text) :
    afterLastBreak (intoBytes text) =
      if text.any isBreak then some (intoBytes (lastLine text)) else none := by
  rw [afterLastBreak, any_isBreakByte_intoBytes, rtakeWhile_intoBytes]

end Lines

section Fitting

theorem fitting_suffix (text : Text) : fitting text <:+ text := by
  induction text with
  | nil => exact List.suffix_refl _
  | cons c text ih =>
      rw [fitting]
      split_ifs
      · exact List.suffix_refl _
      · exact ih.trans (List.suffix_cons c text)

theorem fitting_of_le {text : Text} (h : (intoBytes text).length ≤ promptLimit) :
    fitting text = text := by
  cases text with
  | nil => rfl
  | cons c text => rw [fitting, if_pos h]

theorem fitting_cons_of_lt {c : Char} {text : Text}
    (h : promptLimit < (intoBytes (c :: text)).length) : fitting (c :: text) = fitting text := by
  rw [fitting, if_neg (Nat.not_le.mpr h)]

theorem fitting_append {c : Char} {text : Text}
    (h : promptLimit < (intoBytes (c :: text)).length) (front : Text) :
    fitting (front ++ c :: text) = fitting text := by
  induction front with
  | nil => exact fitting_cons_of_lt h
  | cons d front ih =>
      rw [List.cons_append, fitting_cons_of_lt, ih]
      rw [length_intoBytes_cons, intoBytes_append, List.length_append]
      omega

/-- Nothing that fits and ends a text is longer. -/
theorem suffix_fitting {text part : Text} (hpart : part <:+ text)
    (hfits : (intoBytes part).length ≤ promptLimit) : part <:+ fitting text := by
  induction text with
  | nil => exact hpart
  | cons c text ih =>
      rw [fitting]
      split_ifs with hlong
      · exact hpart
      · rcases List.suffix_cons_iff.mp hpart with rfl | hpart
        · exact absurd hfits hlong
        · exact ih hpart

/-- A part that was left out before plays no role later. -/
theorem fitting_fitting_append (text more : Text) :
    fitting (fitting text ++ more) = fitting (text ++ more) := by
  induction text with
  | nil => rfl
  | cons c text ih =>
      by_cases hfits : (intoBytes (c :: text)).length ≤ promptLimit
      · rw [fitting_of_le hfits]
      · have hlong : promptLimit < (intoBytes (c :: (text ++ more))).length := by
          rw [length_intoBytes_cons] at hfits ⊢
          rw [intoBytes_append, List.length_append]
          omega
        rw [fitting_cons_of_lt (Nat.not_le.mp hfits), ih, List.cons_append,
          fitting_cons_of_lt hlong]

theorem truncate_intoBytes (text : Text) :
    truncate (intoBytes text) = intoBytes (fitting text) := by
  induction text with
  | nil => rw [fitting, intoBytes_nil]; rfl
  | cons c text ih =>
      by_cases hfits : (intoBytes (c :: text)).length ≤ promptLimit
      · rw [fitting_of_le hfits, truncate, if_neg (Nat.not_lt.mpr hfits)]
      · rw [Nat.not_le] at hfits
        rw [fitting_cons_of_lt hfits, ← ih, truncate, if_pos hfits]
        obtain ⟨first, rest, hbytes, -, hrest⟩ := exists_first c
        have hsize := String.length_utf8EncodeChar c
        rw [length_intoBytes_cons] at hfits ⊢
        rw [intoBytes_cons, List.drop_append, hsize]
        by_cases hlong : promptLimit < (intoBytes text).length
        · have hnone : (String.utf8EncodeChar c).drop
              (c.utf8Size + (intoBytes text).length - promptLimit) = [] := by
            rw [List.drop_eq_nil_iff]
            omega
          have hskip : c.utf8Size + (intoBytes text).length - promptLimit - c.utf8Size =
              (intoBytes text).length - promptLimit := by
            omega
          rw [truncate, if_pos hlong, hnone, List.nil_append, hskip]
        · -- the cut is inside the character, whose other bytes go as well
          have hskip : c.utf8Size + (intoBytes text).length - promptLimit - c.utf8Size = 0 := by
            omega
          obtain ⟨more, hmore⟩ : ∃ more, c.utf8Size + (intoBytes text).length - promptLimit =
              more + 1 := ⟨_, (Nat.succ_pred_eq_of_pos (by omega)).symm⟩
          rw [truncate, if_neg hlong, hskip, List.drop_zero, hmore, hbytes, List.drop_succ_cons,
            List.dropWhile_append_of_pos fun byte hbyte => hrest byte (List.mem_of_mem_drop hbyte),
            dropWhile_tail_intoBytes]

end Fitting

theorem updatePromptTail_eq {decoded text : Text} {payload : Bytes}
    (htext : (fromUtf8Lossy payload).bytes = intoBytes text) :
    updatePromptTail (intoBytes (fitting (lastLine decoded))) payload =
      intoBytes (fitting (lastLine (decoded ++ text))) := by
  rw [updatePromptTail, htext, afterLastBreak_intoBytes, lastLine_append]
  split_ifs with hbreak
  · exact truncate_intoBytes _
  · simp only [← intoBytes_append, truncate_intoBytes, fitting_fitting_append]

theorem exists_decoded (payloads : List Bytes) :
    ∃ decoded, (payloads.map fun payload => (fromUtf8Lossy payload).bytes).flatten =
      intoBytes decoded := by
  induction payloads with
  | nil => exact ⟨[], intoBytes_nil.symm⟩
  | cons payload payloads ih =>
      obtain ⟨text, htext⟩ := valid_iff.mp (fromUtf8Lossy payload).valid
      obtain ⟨decoded, hdecoded⟩ := ih
      exact ⟨text ++ decoded, by
        rw [List.map_cons, List.flatten_cons, hdecoded, intoBytes_append, htext]⟩

/-- The prompt after all payloads is that of the text they are decoded to. -/
theorem foldl_updatePromptTail (payloads : List Bytes) {decoded : Text}
    (hdecoded : (payloads.map fun payload => (fromUtf8Lossy payload).bytes).flatten =
      intoBytes decoded) :
    payloads.foldl updatePromptTail [] = intoBytes (fitting (lastLine decoded)) := by
  induction payloads using List.reverseRecOn generalizing decoded with
  | nil =>
      obtain rfl : [] = decoded := intoBytes_inj (intoBytes_nil.trans hdecoded)
      exact intoBytes_nil.symm
  | append_singleton payloads payload ih =>
      obtain ⟨earlier, hearlier⟩ := exists_decoded payloads
      obtain ⟨text, htext⟩ := valid_iff.mp (fromUtf8Lossy payload).valid
      have hsplit : earlier ++ text = decoded := by
        apply intoBytes_inj
        rw [intoBytes_append, htext, ← hearlier, ← hdecoded]
        simp
      rw [List.foldl_append, List.foldl_cons, List.foldl_nil, ih hearlier,
        updatePromptTail_eq htext.symm, hsplit]

end SideWire.PromptTail
