import SideWire.Base.ByteString
import SideWire.Base.SequenceCode

/-!
UTF-8 as a code: the table of well-formed byte sequences, and that its words are the
encodings of the characters.
-/

namespace SideWire.Utf8

open SideWire.ByteString
open SideWire.SequenceCode

/-- A byte from `low` to `high`. -/
def within (low high byte : UInt8) : Bool := decide (low ≤ byte) && decide (byte ≤ high)

/-- A continuation byte. -/
def tail : UInt8 → Bool := within 0x80 0xBF

/-- What may follow the first byte of a character. -/
def follow (first : UInt8) : Option (List (UInt8 → Bool)) :=
  if first ≤ 0x7F then some []
  else if first < 0xC2 then none
  else if first ≤ 0xDF then some [tail]
  else if first = 0xE0 then some [within 0xA0 0xBF, tail]
  else if first = 0xED then some [within 0x80 0x9F, tail]
  else if first ≤ 0xEF then some [tail, tail]
  else if first = 0xF0 then some [within 0x90 0xBF, tail, tail]
  else if first ≤ 0xF3 then some [tail, tail, tail]
  else if first = 0xF4 then some [within 0x80 0x8F, tail, tail]
  else none

theorem follow_inhabited {first : UInt8} {tests : List (UInt8 → Bool)}
    (h : follow first = some tests) : ∀ test ∈ tests, ∃ byte, test byte = true := by
  have htests : ∀ test ∈ tests, test 0x80 = true ∨ test 0xA0 = true := by
    unfold follow at h
    split_ifs at h <;> obtain rfl := Option.some.inj h <;>
      simp only [List.forall_mem_cons, List.not_mem_nil, false_implies, implies_true, and_true] <;>
      decide
  intro test htest
  rcases htests test htest with hbyte | hbyte
  · exact ⟨_, hbyte⟩
  · exact ⟨_, hbyte⟩

def utf8 : Code UInt8 := ⟨follow, follow_inhabited⟩

theorem within_iff {low high byte : UInt8} :
    within low high byte = true ↔ low.toNat ≤ byte.toNat ∧ byte.toNat ≤ high.toNat := by
  simp [within, UInt8.le_iff_toNat_le]

/-- The words by their lengths. -/
inductive Shape : Bytes → Prop
  | one {a : UInt8} : a.toNat ≤ 0x7F → Shape [a]
  | two {a b : UInt8} : 0xC2 ≤ a.toNat → a.toNat ≤ 0xDF → tail b = true → Shape [a, b]
  | three {a b c : UInt8} : 0xE0 ≤ a.toNat → a.toNat ≤ 0xEF →
      (a.toNat = 0xE0 → 0xA0 ≤ b.toNat) → (a.toNat = 0xED → b.toNat ≤ 0x9F) →
      tail b = true → tail c = true → Shape [a, b, c]
  | four {a b c d : UInt8} : 0xF0 ≤ a.toNat → a.toNat ≤ 0xF4 →
      (a.toNat = 0xF0 → 0x90 ≤ b.toNat) → (a.toNat = 0xF4 → b.toNat ≤ 0x8F) →
      tail b = true → tail c = true → tail d = true → Shape [a, b, c, d]

theorem tail_of_within {low high byte : UInt8} (hlow : 0x80 ≤ low.toNat)
    (hhigh : high.toNat ≤ 0xBF) (h : within low high byte = true) : tail byte = true := by
  obtain ⟨hle, hle'⟩ := within_iff.mp h
  exact within_iff.mpr ⟨Nat.le_trans hlow hle, Nat.le_trans hle' hhigh⟩

theorem follow_eq (first : UInt8) :
    follow first =
      if first.toNat ≤ 0x7F then some []
      else if first.toNat < 0xC2 then none
      else if first.toNat ≤ 0xDF then some [tail]
      else if first.toNat = 0xE0 then some [within 0xA0 0xBF, tail]
      else if first.toNat = 0xED then some [within 0x80 0x9F, tail]
      else if first.toNat ≤ 0xEF then some [tail, tail]
      else if first.toNat = 0xF0 then some [within 0x90 0xBF, tail, tail]
      else if first.toNat ≤ 0xF3 then some [tail, tail, tail]
      else if first.toNat = 0xF4 then some [within 0x80 0x8F, tail, tail]
      else none := by
  simp only [follow, UInt8.le_iff_toNat_le, UInt8.lt_iff_toNat_lt, ← UInt8.toNat_inj,
    UInt8.toNat_ofNat]

theorem shape_of_word {bytes : Bytes} (h : utf8.Word bytes) : Shape bytes := by
  obtain ⟨a, tests, rest, rfl, hfollow, hrest⟩ := h
  change follow a = some tests at hfollow
  have htests : ∀ {test : UInt8 → Bool} {tests : List (UInt8 → Bool)} {rest : Bytes},
      List.Forall₂ (fun test x => test x = true) (test :: tests) rest →
        ∃ b more, rest = b :: more ∧ test b = true ∧
          List.Forall₂ (fun test x => test x = true) tests more := by
    intro test tests rest h
    cases h with
    | cons hb hmore => exact ⟨_, _, rfl, hb, hmore⟩
  rw [follow_eq] at hfollow
  split_ifs at hfollow with h₁ h₂ h₃ h₄ h₅ h₆ h₇ h₈ h₉ <;>
    obtain rfl := Option.some.inj hfollow
  · cases hrest
    exact .one h₁
  · obtain ⟨b, more, rfl, hb, hrest⟩ := htests hrest
    cases hrest
    exact .two (by omega) h₃ hb
  · obtain ⟨b, more, rfl, hb, hrest⟩ := htests hrest
    obtain ⟨c, more, rfl, hc, hrest⟩ := htests hrest
    cases hrest
    have hrange := within_iff.mp hb
    exact .three (by omega) (by omega) (fun _ => hrange.1) (by omega)
      (tail_of_within (by decide) (by decide) hb) hc
  · obtain ⟨b, more, rfl, hb, hrest⟩ := htests hrest
    obtain ⟨c, more, rfl, hc, hrest⟩ := htests hrest
    cases hrest
    have hrange := within_iff.mp hb
    exact .three (by omega) (by omega) (by omega) (fun _ => hrange.2)
      (tail_of_within (by decide) (by decide) hb) hc
  · obtain ⟨b, more, rfl, hb, hrest⟩ := htests hrest
    obtain ⟨c, more, rfl, hc, hrest⟩ := htests hrest
    cases hrest
    exact .three (by omega) h₆ (by omega) (by omega) hb hc
  · obtain ⟨b, more, rfl, hb, hrest⟩ := htests hrest
    obtain ⟨c, more, rfl, hc, hrest⟩ := htests hrest
    obtain ⟨d, more, rfl, hd, hrest⟩ := htests hrest
    cases hrest
    have hrange := within_iff.mp hb
    exact .four (by omega) (by omega) (fun _ => hrange.1) (by omega)
      (tail_of_within (by decide) (by decide) hb) hc hd
  · obtain ⟨b, more, rfl, hb, hrest⟩ := htests hrest
    obtain ⟨c, more, rfl, hc, hrest⟩ := htests hrest
    obtain ⟨d, more, rfl, hd, hrest⟩ := htests hrest
    cases hrest
    exact .four (by omega) (by omega) (by omega) (by omega) hb hc hd
  · obtain ⟨b, more, rfl, hb, hrest⟩ := htests hrest
    obtain ⟨c, more, rfl, hc, hrest⟩ := htests hrest
    obtain ⟨d, more, rfl, hd, hrest⟩ := htests hrest
    cases hrest
    have hrange := within_iff.mp hb
    exact .four (by omega) (by omega) (by omega) (fun _ => hrange.2)
      (tail_of_within (by decide) (by decide) hb) hc hd

theorem word_of_shape {bytes : Bytes} (h : Shape bytes) : utf8.Word bytes := by
  have hword : ∀ {a tests rest}, follow a = some tests →
      List.Forall₂ (fun test x => test x = true) tests rest → utf8.Word (a :: rest) :=
    fun hfollow hrest => ⟨_, _, _, rfl, hfollow, hrest⟩
  cases h with
  | @one a ha =>
      have hfollow : follow a = some [] := by rw [follow_eq, if_pos ha]
      exact hword hfollow .nil
  | @two a b ha ha' hb =>
      have hfollow : follow a = some [tail] := by
        rw [follow_eq, if_neg (by omega), if_neg (by omega), if_pos ha']
      exact hword hfollow (.cons hb .nil)
  | @three a b c ha ha' hE0 hED hb hc =>
      obtain ⟨hlow, hhigh⟩ := within_iff.mp hb
      rcases eq_or_ne a.toNat 0xE0 with h | h
      · have hfollow : follow a = some [within 0xA0 0xBF, tail] := by
          rw [follow_eq, if_neg (by omega), if_neg (by omega), if_neg (by omega), if_pos h]
        exact hword hfollow (.cons (within_iff.mpr ⟨hE0 h, hhigh⟩) (.cons hc .nil))
      rcases eq_or_ne a.toNat 0xED with h' | h'
      · have hfollow : follow a = some [within 0x80 0x9F, tail] := by
          rw [follow_eq, if_neg (by omega), if_neg (by omega), if_neg (by omega), if_neg h,
            if_pos h']
        exact hword hfollow (.cons (within_iff.mpr ⟨hlow, hED h'⟩) (.cons hc .nil))
      · have hfollow : follow a = some [tail, tail] := by
          rw [follow_eq, if_neg (by omega), if_neg (by omega), if_neg (by omega), if_neg h,
            if_neg h', if_pos ha']
        exact hword hfollow (.cons hb (.cons hc .nil))
  | @four a b c d ha ha' hF0 hF4 hb hc hd =>
      obtain ⟨hlow, hhigh⟩ := within_iff.mp hb
      have hstart : follow a =
          if a.toNat = 0xF0 then some [within 0x90 0xBF, tail, tail]
          else if a.toNat ≤ 0xF3 then some [tail, tail, tail]
          else if a.toNat = 0xF4 then some [within 0x80 0x8F, tail, tail]
          else none := by
        rw [follow_eq, if_neg (by omega), if_neg (by omega), if_neg (by omega),
          if_neg (by omega), if_neg (by omega), if_neg (by omega)]
      rcases eq_or_ne a.toNat 0xF0 with h | h
      · rw [if_pos h] at hstart
        exact hword hstart (.cons (within_iff.mpr ⟨hF0 h, hhigh⟩) (.cons hc (.cons hd .nil)))
      rw [if_neg h] at hstart
      rcases Nat.lt_or_ge 0xF3 a.toNat with h' | h'
      · have hF4' : a.toNat = 0xF4 := by omega
        rw [if_neg (by omega), if_pos hF4'] at hstart
        exact hword hstart (.cons (within_iff.mpr ⟨hlow, hF4 hF4'⟩) (.cons hc (.cons hd .nil)))
      · rw [if_pos h'] at hstart
        exact hword hstart (.cons hb (.cons hc (.cons hd .nil)))

theorem tail_ofNat {n : Nat} (h : n < 64) : tail (UInt8.ofNat (n + 0x80)) = true := by
  refine within_iff.mpr ⟨?_, ?_⟩ <;> simp only [UInt8.toNat_ofNat', UInt8.toNat_ofNat] <;> omega

theorem shape_utf8EncodeChar (c : Char) : Shape (String.utf8EncodeChar c) := by
  have hvalid : c.val.toNat < 0xD800 ∨ 0xDFFF < c.val.toNat ∧ c.val.toNat < 0x110000 := c.valid
  have hmod : ∀ n : Nat, n % 64 < 64 := fun n => Nat.mod_lt n (by decide)
  unfold String.utf8EncodeChar
  dsimp only
  split_ifs with h₁ h₂ h₃
  · exact .one (by rw [UInt8.toNat_ofNat']; omega)
  · exact .two (by rw [UInt8.toNat_ofNat']; omega) (by rw [UInt8.toNat_ofNat']; omega)
      (tail_ofNat (hmod _))
  · refine .three ?_ ?_ ?_ ?_ (tail_ofNat (hmod _)) (tail_ofNat (hmod _)) <;>
      simp only [UInt8.toNat_ofNat'] <;> omega
  · refine .four ?_ ?_ ?_ ?_ (tail_ofNat (hmod _)) (tail_ofNat (hmod _)) (tail_ofNat (hmod _)) <;>
      simp only [UInt8.toNat_ofNat'] <;> omega

theorem exists_char_of_shape {bytes : Bytes} (h : Shape bytes) :
    ∃ c : Char, String.utf8EncodeChar c = bytes := by
  have hchar : ∀ v : Nat, v < 0xD800 ∨ 0xDFFF < v ∧ v < 0x110000 →
      ∃ c : Char, c.val.toNat = v := by
    intro v hv
    have hlt : v < UInt32.size := by
      have : (0x110000 : Nat) < UInt32.size := by decide
      omega
    have htoNat : (UInt32.ofNat v).toNat = v := UInt32.toNat_ofNat_of_lt' hlt
    exact ⟨⟨UInt32.ofNat v, by rw [UInt32.isValidChar, htoNat]; exact hv⟩, htoNat⟩
  cases h with
  | @one a ha =>
      obtain ⟨c, hc⟩ := hchar a.toNat (by omega)
      refine ⟨c, ?_⟩
      simp only [String.utf8EncodeChar, hc, if_pos ha, UInt8.ofNat_toNat]
  | @two a b ha ha' hb =>
      obtain ⟨hlow, hhigh⟩ := within_iff.mp hb
      simp only [UInt8.toNat_ofNat] at hlow hhigh
      obtain ⟨c, hc⟩ := hchar ((a.toNat - 0xC0) * 64 + (b.toNat - 0x80)) (by omega)
      refine ⟨c, ?_⟩
      simp only [String.utf8EncodeChar, hc]
      rw [if_neg (by omega), if_pos (by omega)]
      simp only [List.cons.injEq, ← UInt8.toNat_inj, UInt8.toNat_ofNat', and_true]
      omega
  | @three a b c ha ha' hE0 hED hb hc =>
      obtain ⟨hlow, hhigh⟩ := within_iff.mp hb
      obtain ⟨hlow', hhigh'⟩ := within_iff.mp hc
      simp only [UInt8.toNat_ofNat] at hlow hhigh hlow' hhigh'
      obtain ⟨x, hx⟩ := hchar ((a.toNat - 0xE0) * 4096 + (b.toNat - 0x80) * 64 +
        (c.toNat - 0x80)) (by omega)
      refine ⟨x, ?_⟩
      simp only [String.utf8EncodeChar, hx]
      rw [if_neg (by omega), if_neg (by omega), if_pos (by omega)]
      simp only [List.cons.injEq, ← UInt8.toNat_inj, UInt8.toNat_ofNat', and_true]
      omega
  | @four a b c d ha ha' hF0 hF4 hb hc hd =>
      obtain ⟨hlow, hhigh⟩ := within_iff.mp hb
      obtain ⟨hlow', hhigh'⟩ := within_iff.mp hc
      obtain ⟨hlow'', hhigh''⟩ := within_iff.mp hd
      simp only [UInt8.toNat_ofNat] at hlow hhigh hlow' hhigh' hlow'' hhigh''
      obtain ⟨x, hx⟩ := hchar ((a.toNat - 0xF0) * 262144 + (b.toNat - 0x80) * 4096 +
        (c.toNat - 0x80) * 64 + (d.toNat - 0x80)) (by omega)
      refine ⟨x, ?_⟩
      simp only [String.utf8EncodeChar, hx]
      rw [if_neg (by omega), if_neg (by omega), if_neg (by omega)]
      simp only [List.cons.injEq, ← UInt8.toNat_inj, UInt8.toNat_ofNat', and_true]
      omega

/-- The words of the table are the encodings of the characters. -/
theorem word_iff {bytes : Bytes} :
    utf8.Word bytes ↔ ∃ c : Char, String.utf8EncodeChar c = bytes := by
  constructor
  · exact fun h => exists_char_of_shape (shape_of_word h)
  · rintro ⟨c, rfl⟩
    exact word_of_shape (shape_utf8EncodeChar c)

theorem intoBytes_eq (text : List Char) : intoBytes text = text.flatMap String.utf8EncodeChar := by
  have hbytes : (String.ofList text).toByteArray = text.utf8Encode := rfl
  rw [intoBytes, hbytes, List.utf8Encode, List.data_toByteArray]

/-- Valid bytes are those of a text. -/
theorem valid_iff {bytes : Bytes} :
    utf8.Valid bytes ↔ ∃ text : List Char, intoBytes text = bytes := by
  simp only [intoBytes_eq]
  constructor
  · rintro ⟨words, hwords, rfl⟩
    induction words with
    | nil => exact ⟨[], rfl⟩
    | cons word words ih =>
        obtain ⟨hword, hrest⟩ := List.forall_mem_cons.mp hwords
        obtain ⟨c, hc⟩ := word_iff.mp hword
        obtain ⟨text, htext⟩ := ih hrest
        exact ⟨c :: text, by rw [List.flatMap_cons, hc, htext, List.flatten_cons]⟩
  · rintro ⟨text, rfl⟩
    refine ⟨text.map String.utf8EncodeChar, ?_, List.flatMap_def⟩
    intro word hword
    obtain ⟨c, -, rfl⟩ := List.mem_map.mp hword
    exact word_iff.mpr ⟨c, rfl⟩

theorem incomplete_iff {bytes : Bytes} :
    utf8.Incomplete bytes ↔
      ∃ c : Char, bytes <+: String.utf8EncodeChar c ∧ bytes ≠ String.utf8EncodeChar c := by
  constructor
  · rintro ⟨more, hmore, hword⟩
    obtain ⟨c, hc⟩ := word_iff.mp hword
    refine ⟨c, ⟨more, hc.symm⟩, ?_⟩
    intro heq
    rw [← heq] at hc
    exact hmore (by simpa using hc)
  · rintro ⟨c, ⟨more, hmore⟩, hne⟩
    refine ⟨more, ?_, word_iff.mpr ⟨c, hmore.symm⟩⟩
    rintro rfl
    exact hne (by simpa using hmore)

theorem not_tail_of_le {byte : UInt8} (h : byte.toNat ≤ 0x7F ∨ 0xC0 ≤ byte.toNat) :
    tail byte = false := by
  rw [← Bool.not_eq_true]
  intro htail
  obtain ⟨hlow, hhigh⟩ := within_iff.mp htail
  simp only [UInt8.toNat_ofNat] at hlow hhigh
  omega

theorem exists_first (c : Char) :
    ∃ first rest, String.utf8EncodeChar c = first :: rest ∧ tail first = false ∧
      ∀ byte ∈ rest, tail byte = true := by
  have hshape := shape_utf8EncodeChar c
  generalize String.utf8EncodeChar c = bytes at hshape ⊢
  cases hshape with
  | one ha => exact ⟨_, [], rfl, not_tail_of_le (.inl ha), by simp⟩
  | two ha _ hb => exact ⟨_, _, rfl, not_tail_of_le (.inr (by omega)), by simp [hb]⟩
  | three ha _ _ _ hb hc => exact ⟨_, _, rfl, not_tail_of_le (.inr (by omega)), by simp [hb, hc]⟩
  | four ha _ _ _ hb hc hd =>
      exact ⟨_, _, rfl, not_tail_of_le (.inr (by omega)), by simp [hb, hc, hd]⟩

theorem eq_singleton_of_mem {c : Char} {byte : UInt8} (hbyte : byte ∈ String.utf8EncodeChar c)
    (hascii : byte.toNat ≤ 0x7F) : String.utf8EncodeChar c = [byte] := by
  have htail : ∀ {b : UInt8}, tail b = true → byte ≠ b := by
    rintro b hb rfl
    rw [not_tail_of_le (.inl hascii)] at hb
    exact nomatch hb
  have hshape := shape_utf8EncodeChar c
  generalize String.utf8EncodeChar c = bytes at hshape hbyte ⊢
  cases hshape with
  | one => rw [List.mem_singleton.mp hbyte]
  | two ha _ hb =>
      simp only [List.mem_cons, htail hb, List.not_mem_nil, or_false] at hbyte
      subst hbyte
      omega
  | three ha _ _ _ hb hc =>
      simp only [List.mem_cons, htail hb, htail hc, List.not_mem_nil, or_false] at hbyte
      subst hbyte
      omega
  | four ha _ _ _ hb hc hd =>
      simp only [List.mem_cons, htail hb, htail hc, htail hd, List.not_mem_nil, or_false] at hbyte
      subst hbyte
      omega

theorem lossy_tail {byte : UInt8} (h : tail byte = true) (mark more : Bytes) :
    utf8.lossy mark (byte :: more) = mark ++ utf8.lossy mark more := by
  have hfollow : follow byte = none := by
    obtain ⟨hlow, hhigh⟩ := within_iff.mp h
    simp only [UInt8.toNat_ofNat] at hlow hhigh
    rw [follow_eq, if_neg (by omega), if_pos (by omega)]
  have hscan : utf8.scan (byte :: more) = .bad 1 := by
    rw [Code.scan]
    simp only [utf8, hfollow]
  rw [lossy_of_bad hscan]
  rfl

theorem lossy_char (c : Char) (mark more : Bytes) :
    utf8.lossy mark (String.utf8EncodeChar c ++ more) =
      String.utf8EncodeChar c ++ utf8.lossy mark more :=
  lossy_append_of_word (word_iff.mpr ⟨c, rfl⟩) mark more

theorem length_le_of_incomplete {bytes : Bytes} (h : utf8.Incomplete bytes) :
    bytes.length ≤ 3 := by
  obtain ⟨more, hmore, hword⟩ := h
  obtain ⟨c, hc⟩ := word_iff.mp hword
  have hsize := c.utf8Size_le_four
  rw [← String.length_utf8EncodeChar, hc, List.length_append] at hsize
  have hpos := List.length_pos_iff.mpr hmore
  omega

end SideWire.Utf8
