import SideWire.Base.SizedText
import SideWire.Base.Utf8
import SideWire.PairingStore

/-!
The hexadecimal texts of identities and keys, as `DeviceId::parse` and `key_from_hex` read
them: by the bytes of the text, two at a time.
-/

namespace SideWire.HexTexts

open SideWire.ByteString
open SideWire.PairingStore
open SideWire.SizedText

/-- `u8::is_ascii_hexdigit`. -/
def isHexByte (byte : UInt8) : Bool :=
  (0x30 ≤ byte && byte ≤ 0x39) || (0x41 ≤ byte && byte ≤ 0x46) || (0x61 ≤ byte && byte ≤ 0x66)

/-- `char::to_digit` in radix 16. -/
def toDigit (c : Char) : Option Nat := if isAsciiHexdigit c then some (hexValue c) else none

/-- The value of the digits behind those that have been read. -/
def fromDigits (value : Nat) : Text → Except String UInt8
  | [] => .ok (UInt8.ofNat value)
  | c :: text =>
      match toDigit c with
      | none => .error "invalid digit found in string"
      | some digit =>
          if 255 < value * 16 + digit then .error "number too large to fit in target type"
          else fromDigits (value * 16 + digit) text

/-- `u8::from_str_radix` with radix 16. -/
def fromStrRadix : Text → Except String UInt8
  | [] => .error "cannot parse integer from empty string"
  | ['+'] => .error "invalid digit found in string"
  | '+' :: text => fromDigits 0 text
  | text => fromDigits 0 text

/-- The loop over the bytes to be filled, each from the two digits at its offset. It is
`none` where the slice would panic off a character boundary. -/
def readBytes (refusal : String → String) (text : Text) {count : Nat} :
    List (Fin count) → Vector UInt8 count → Option (Except String (Vector UInt8 count))
  | [], bytes => some (.ok bytes)
  | index :: indices, bytes => do
      let digits ← slice Char.utf8Size text (index.val * 2) (index.val * 2 + 2)
      match fromStrRadix digits with
      | .error error => some (.error (refusal error))
      | .ok byte => readBytes refusal text indices (bytes.set index.val byte)

/-- Both parsers, behind what they strip off first. -/
def parseBytes (count : Nat) (message : String) (refusal : String → String) (text : Text) :
    Option (Except String (Vector UInt8 count)) :=
  if len Char.utf8Size text ≠ 2 * count ∨ (intoBytes text).all isHexByte = false then
    some (.error message)
  else readBytes refusal text (List.finRange count) (Vector.replicate count 0)

def DeviceId.parse (value : Text) : Option (Except String DeviceId) :=
  parseBytes 16 "device id must contain 32 hexadecimal digits" (fun _ => "decode device id")
    (value.filter (· ≠ '-'))

def keyFromHex (value : Text) : Option (Except String Key) :=
  parseBytes 32 "security key must contain 64 hexadecimal digits" id (trim value)

/-- Exactly so many ASCII hexadecimal digits. -/
def IsHex (count : Nat) (text : Text) : Prop :=
  text.length = count ∧ ∀ c ∈ text, isAsciiHexdigit c = true

/-- The byte that two digits stand for. -/
def pairValue (high low : Char) : UInt8 := UInt8.ofNat (16 * hexValue high + hexValue low)

/-- The bytes of a text, by its digits in pairs. -/
def pairs : Text → Bytes
  | high :: low :: text => pairValue high low :: pairs text
  | _ => []

section Digits

theorem toNat_lt_of_hexdigit {c : Char} (h : isAsciiHexdigit c = true) : c.toNat < 128 := by
  simp only [isAsciiHexdigit, Bool.or_eq_true, Bool.and_eq_true, decide_eq_true_eq,
    Char.le_def, UInt32.le_iff_toNat_le] at h
  have hnine : '9'.val.toNat < 128 := by decide
  have hlower : 'f'.val.toNat < 128 := by decide
  have hupper : 'F'.val.toNat < 128 := by decide
  change c.val.toNat < 128
  omega

theorem ascii_spec : ∀ n < 128, isHexByte (UInt8.ofNat n) = isAsciiHexdigit (Char.ofNat n) ∧
    (isAsciiHexdigit (Char.ofNat n) = true → hexValue (Char.ofNat n) < 16 ∧
      Nat.digitChar (hexValue (Char.ofNat n)) = (Char.ofNat n).toLower) := by
  decide

theorem hexdigit_spec {c : Char} (h : isAsciiHexdigit c = true) :
    hexValue c < 16 ∧ Nat.digitChar (hexValue c) = c.toLower := by
  have hspec := (ascii_spec c.toNat (toNat_lt_of_hexdigit h)).2
  rw [Char.ofNat_toNat] at hspec
  exact hspec h

theorem utf8Size_of_lt {c : Char} (h : c.toNat < 128) : c.utf8Size = 1 := by
  have hval : c.val.toNat < 128 := h
  rw [Char.utf8Size_eq_one_iff, UInt32.le_iff_toNat_le]
  simp only [UInt32.toNat_ofNat]
  omega

theorem utf8Size_of_hexdigit {c : Char} (h : isAsciiHexdigit c = true) : c.utf8Size = 1 :=
  utf8Size_of_lt (toNat_lt_of_hexdigit h)

theorem toNat_le_of_isHexByte {byte : UInt8} (h : isHexByte byte = true) :
    byte.toNat ≤ 0x7F := by
  simp only [isHexByte, Bool.or_eq_true, Bool.and_eq_true, decide_eq_true_eq,
    UInt8.le_iff_toNat_le, UInt8.toNat_ofNat] at h
  omega

theorem all_isHexByte (c : Char) :
    (String.utf8EncodeChar c).all isHexByte = isAsciiHexdigit c := by
  by_cases hascii : c.toNat < 128
  · have hspec := (ascii_spec c.toNat hascii).1
    rw [Char.ofNat_toNat] at hspec
    rw [String.utf8EncodeChar_eq_singleton (utf8Size_of_lt hascii), List.all_cons, List.all_nil,
      Bool.and_true, ← hspec]
    congr 1
  · have hnot : isAsciiHexdigit c = false := by
      rw [← Bool.not_eq_true]
      exact fun h => hascii (toNat_lt_of_hexdigit h)
    rw [hnot, ← Bool.not_eq_true, List.all_eq_true]
    intro hall
    obtain ⟨first, rest, hencode, -⟩ := Utf8.exists_first c
    have hmem : first ∈ String.utf8EncodeChar c := by
      rw [hencode]
      exact List.mem_cons_self
    -- A single byte below 0x80 would make the character an ASCII one.
    have hsingle := Utf8.eq_singleton_of_mem hmem (toNat_le_of_isHexByte (hall first hmem))
    have hsize := congrArg List.length hsingle
    rw [String.length_utf8EncodeChar, List.length_singleton, Char.utf8Size_eq_one_iff,
      UInt32.le_iff_toNat_le] at hsize
    exact hascii (Nat.lt_succ_of_le hsize)

theorem all_isHexByte_intoBytes (text : Text) :
    (intoBytes text).all isHexByte = text.all isAsciiHexdigit := by
  rw [Utf8.intoBytes_eq, List.all_flatMap]
  exact congrArg text.all (funext all_isHexByte)

theorem len_of_hexdigits {text : Text} (h : ∀ c ∈ text, isAsciiHexdigit c = true) :
    len Char.utf8Size text = text.length := by
  induction text with
  | nil => rfl
  | cons c text ih =>
      rw [len_cons, utf8Size_of_hexdigit (h c List.mem_cons_self),
        ih fun d hd => h d (List.mem_cons_of_mem c hd), List.length_cons, Nat.add_comm]

theorem isHex_iff {count : Nat} {text : Text} :
    IsHex count text ↔
      ¬ (len Char.utf8Size text ≠ count ∨ (intoBytes text).all isHexByte = false) := by
  rw [all_isHexByte_intoBytes, not_or, not_not, Bool.not_eq_false, List.all_eq_true]
  constructor
  · rintro ⟨hlen, hall⟩
    exact ⟨(len_of_hexdigits hall).trans hlen, hall⟩
  · rintro ⟨hlen, hall⟩
    exact ⟨(len_of_hexdigits hall).symm.trans hlen, hall⟩

theorem fromStrRadix_pair {high low : Char} (hhigh : isAsciiHexdigit high = true)
    (hlow : isAsciiHexdigit low = true) :
    fromStrRadix [high, low] = .ok (pairValue high low) := by
  have hplus : high ≠ '+' := by
    rintro rfl
    exact nomatch hhigh
  obtain ⟨hlarge, -⟩ := hexdigit_spec hhigh
  obtain ⟨hsmall, -⟩ := hexdigit_spec hlow
  have hbyte : ¬ 255 < (0 * 16 + hexValue high) * 16 + hexValue low := by omega
  have hfirst : ¬ 255 < 0 * 16 + hexValue high := by omega
  rw [fromStrRadix]
  · simp only [fromDigits, toDigit, if_pos hhigh, if_pos hlow, if_neg hfirst, if_neg hbyte]
    rw [pairValue, Nat.zero_mul, Nat.zero_add, Nat.mul_comm]
  · exact nofun
  · exact nofun
  · rintro text heq
    exact hplus (List.cons.inj heq).1

theorem hexByte_pairValue {high low : Char} (hhigh : isAsciiHexdigit high = true)
    (hlow : isAsciiHexdigit low = true) :
    hexByte (pairValue high low) = [high.toLower, low.toLower] := by
  obtain ⟨hlarge, hhigh'⟩ := hexdigit_spec hhigh
  obtain ⟨hsmall, hlow'⟩ := hexdigit_spec hlow
  have hvalue : (pairValue high low).toNat = 16 * hexValue high + hexValue low := by
    rw [pairValue, UInt8.toNat_ofNat']
    omega
  have hdiv : (16 * hexValue high + hexValue low) / 16 = hexValue high := by omega
  have hmod : (16 * hexValue high + hexValue low) % 16 = hexValue low := by omega
  rw [hexByte, hvalue, hdiv, hmod, hhigh', hlow']

theorem hexText_pairs {count : Nat} {text : Text} (h : IsHex (2 * count) text) :
    hexText (pairs text) = toAsciiLowercase text ∧ (pairs text).length = count := by
  obtain ⟨hlen, hall⟩ := h
  induction count generalizing text with
  | zero =>
      obtain rfl := List.length_eq_zero_iff.mp hlen
      exact ⟨rfl, rfl⟩
  | succ count ih =>
      match text with
      | [] | [_] =>
          simp only [List.length_cons, List.length_nil] at hlen
          omega
      | high :: low :: text =>
          have hrest : text.length = 2 * count := by
            simp only [List.length_cons] at hlen
            omega
          obtain ⟨htext, hcount⟩ := ih hrest fun c hc => hall c (by simp [hc])
          have hpair := hexByte_pairValue (hall high (by simp)) (hall low (by simp))
          constructor
          · rw [pairs, hexText, List.flatMap_cons, hpair, ← hexText, htext]
            rfl
          · rw [pairs, List.length_cons, hcount]

theorem getElem_pairs {text : Text} {index : Nat} (hindex : index * 2 + 1 < text.length) :
    (pairs text)[index]? = some (pairValue text[index * 2] text[index * 2 + 1]) := by
  induction text using pairs.induct generalizing index with
  | case1 high low text ih =>
      cases index with
      | zero => rfl
      | succ index =>
          have hrest : index * 2 + 1 < text.length := by
            simp only [List.length_cons] at hindex
            omega
          rw [pairs, List.getElem?_cons_succ, ih hrest]
          simp only [Nat.succ_mul, List.getElem_cons_succ]
  | case2 text hshort =>
      match text with
      | [] | [_] => simp at hindex
      | high :: low :: text => exact (hshort high low text rfl).elim

end Digits

section Reading

variable {count : Nat} {text : Text} {refusal : String → String}

theorem slice_pair (hex : ∀ c ∈ text, isAsciiHexdigit c = true) {index : Nat}
    (hindex : index * 2 + 1 < text.length) :
    slice Char.utf8Size text (index * 2) (index * 2 + 2) =
      some [text[index * 2], text[index * 2 + 1]] := by
  have hsplit : text = text.take (index * 2) ++ [text[index * 2], text[index * 2 + 1]] ++
      text.drop (index * 2 + 2) := by
    conv_lhs => rw [← List.take_append_drop (index * 2) text]
    rw [List.append_assoc, List.drop_eq_getElem_cons (by omega), List.drop_eq_getElem_cons hindex]
    rfl
  have hlen : ∀ part : Text, part <+: text → len Char.utf8Size part = part.length := by
    intro part hpart
    exact len_of_hexdigits fun c hc => hex c (hpart.subset hc)
  have hfront : len Char.utf8Size (text.take (index * 2)) = index * 2 := by
    rw [hlen _ (List.take_prefix _ _), List.length_take]
    omega
  have hboth : len Char.utf8Size
      (text.take (index * 2) ++ [text[index * 2], text[index * 2 + 1]]) = index * 2 + 2 := by
    rw [hlen _ ⟨_, hsplit.symm⟩, List.length_append, List.length_take]
    simp only [List.length_cons, List.length_nil]
    omega
  have hslice := slice_len Char.utf8Size_pos (text.take (index * 2))
    [text[index * 2], text[index * 2 + 1]] (text.drop (index * 2 + 2))
  rwa [hfront, hboth, ← hsplit] at hslice

theorem readBytes_spec (refusal : String → String) (hex : IsHex (2 * count) text)
    (indices : List (Fin count)) (bytes : Vector UInt8 count) :
    ∃ filled : Vector UInt8 count, readBytes refusal text indices bytes = some (.ok filled) ∧
      ∀ index : Fin count,
        (index ∈ indices → (pairs text)[index.val]? = some filled[index]) ∧
        (index ∉ indices → filled[index] = bytes[index]) := by
  obtain ⟨hlen, hall⟩ := hex
  induction indices generalizing bytes with
  | nil => exact ⟨bytes, rfl, fun index => ⟨nofun, fun _ => rfl⟩⟩
  | cons first indices ih =>
      have hbound : first.val * 2 + 1 < text.length := by omega
      have hdigit : ∀ {index : Nat} (h : index < text.length),
          isAsciiHexdigit text[index] = true := fun h => hall _ (List.getElem_mem h)
      have hbyte := fromStrRadix_pair (hdigit (Nat.lt_of_succ_lt hbound)) (hdigit hbound)
      obtain ⟨filled, hread, hfilled⟩ := ih (bytes.set first.val
        (pairValue text[first.val * 2] text[first.val * 2 + 1]))
      refine ⟨filled, ?_, ?_⟩
      · rw [readBytes, slice_pair hall hbound]
        simp only [Option.bind_eq_bind, Option.bind_some, hbyte, hread]
      · intro index
        obtain ⟨hlater, hkept⟩ := hfilled index
        by_cases hmem : index ∈ indices
        · exact ⟨fun _ => hlater hmem, fun hnot => absurd (List.mem_cons_of_mem _ hmem) hnot⟩
        · refine ⟨?_, ?_⟩
          · intro hcons
            obtain rfl := (List.mem_cons.mp hcons).resolve_right hmem
            rw [hkept hmem, getElem_pairs hbound]
            simp
          · intro hnot
            have hne : first.val ≠ index.val := by
              intro heq
              exact hnot (List.mem_cons.mpr (.inl (Fin.ext heq.symm)))
            rw [hkept hmem]
            exact Vector.getElem_set_ne first.isLt index.isLt hne

theorem parseBytes_of_isHex (message : String) (refusal : String → String)
    (hex : IsHex (2 * count) text) :
    ∃ bytes : Vector UInt8 count, parseBytes count message refusal text = some (.ok bytes) ∧
      bytes.toList = pairs text := by
  obtain ⟨filled, hread, hfilled⟩ := readBytes_spec refusal hex
    (List.finRange count) (Vector.replicate count 0)
  refine ⟨filled, ?_, ?_⟩
  · rw [parseBytes, if_neg (isHex_iff.mp hex), hread]
  · have hlength : filled.toList.length = (pairs text).length := by
      rw [Vector.length_toList, (hexText_pairs hex).2]
    refine List.ext_getElem hlength ?_
    intro index hindex _
    have hcount : index < count := by rwa [Vector.length_toList] at hindex
    have hplace := (hfilled ⟨index, hcount⟩).1 (List.mem_finRange _)
    rw [List.getElem?_eq_some_iff] at hplace
    obtain ⟨_, hplace⟩ := hplace
    rw [Vector.getElem_toList]
    exact hplace.symm

theorem parseBytes_of_not_isHex (message : String) (hex : ¬ IsHex (2 * count) text) :
    parseBytes count message refusal text = some (.error message) := by
  rw [parseBytes, if_pos (not_not.mp (isHex_iff.not.mp hex))]

/-- What the parsers share: they never slice off a character boundary, they accept the texts
of so many digits, and the bytes are spelled by the text in lower case. -/
theorem parseBytes_spec (message : String) (refusal : String → String) (text : Text) :
    ∃ result, parseBytes count message refusal text = some result ∧
      ((∃ bytes, result = .ok bytes) ↔ IsHex (2 * count) text) ∧
      ∀ bytes, result = .ok bytes → hexText bytes.toList = toAsciiLowercase text := by
  by_cases hex : IsHex (2 * count) text
  · obtain ⟨bytes, hparse, hbytes⟩ := parseBytes_of_isHex message refusal hex
    refine ⟨_, hparse, ⟨fun _ => hex, fun _ => ⟨bytes, rfl⟩⟩, ?_⟩
    intro other hother
    obtain rfl := Except.ok.inj hother
    rw [hbytes, (hexText_pairs hex).1]
  · refine ⟨_, parseBytes_of_not_isHex message hex, ⟨nofun, fun h => (hex h).elim⟩, nofun⟩

theorem isHex_hexText (bytes : Vector UInt8 count) : IsHex (2 * count) (hexText bytes.toList) := by
  refine ⟨?_, fun c hc => (hexText_hexdigits _ c hc).1⟩
  rw [length_hexText, Vector.length_toList]

theorem toAsciiLowercase_hexText (bytes : Bytes) :
    toAsciiLowercase (hexText bytes) = hexText bytes := by
  refine (List.map_congr_left ?_).trans (List.map_id _)
  intro c hc
  obtain ⟨byte, -, hbyte⟩ := List.mem_flatMap.mp hc
  have hlt := byte.toNat_lt
  simp only [hexByte, List.mem_cons, List.not_mem_nil, or_false] at hbyte
  rcases hbyte with rfl | rfl
  · exact toLower_digitChar _ (by omega)
  · exact toLower_digitChar _ (by omega)

theorem parseBytes_hexText (message : String) (refusal : String → String)
    (bytes : Vector UInt8 count) :
    parseBytes count message refusal (hexText bytes.toList) = some (.ok bytes) := by
  have hex := isHex_hexText bytes
  obtain ⟨parsed, hparse, hpairs⟩ := parseBytes_of_isHex message refusal hex
  have hsame : hexText parsed.toList = hexText bytes.toList := by
    rw [hpairs, (hexText_pairs hex).1, toAsciiLowercase_hexText]
  rw [hparse, Vector.toList_inj.mp (hexText_inj hsame)]

end Reading

/-- The key as the stores read it is the one that the byte slices give. -/
theorem keyFromHex_eq_some (value : Text) :
    keyFromHex value = some (PairingStore.keyFromHex value) := by
  by_cases hex : IsHex (2 * 32) (trim value)
  · obtain ⟨key, hparse, hpairs⟩ := parseBytes_of_isHex
      "security key must contain 64 hexadecimal digits" id hex
    obtain ⟨hlen, hall⟩ := hex
    rw [keyFromHex, hparse, keyFromHex_eq rfl hlen (List.all_eq_true.mpr hall)]
    refine congrArg (fun key => some (Except.ok key)) (Vector.ext fun index hindex => ?_)
    have hbound : index * 2 + 1 < (trim value).length := by omega
    have hplace := getElem_pairs hbound
    rw [← hpairs, List.getElem?_eq_some_iff] at hplace
    obtain ⟨hlist, hplace⟩ := hplace
    have hdigit : ∀ {place : Nat} (h : place < (trim value).length),
        (trim value).getD place '0' = (trim value)[place] := by
      intro place h
      rw [List.getD_eq_getElem?_getD, List.getElem?_eq_getElem h, Option.getD_some]
    rw [← Vector.getElem_toList, hplace, Vector.getElem_ofFn, pairValue, Nat.mul_comm 2 index,
      hdigit (by omega), hdigit hbound]
    exact hlist
  · rw [keyFromHex, parseBytes_of_not_isHex _ hex, PairingStore.keyFromHex, if_pos]
    rw [← Bool.not_eq_true, List.all_eq_true]
    exact not_and_or.mp hex

/-- Ids and keys are read back from their texts, exactly the texts of so many hexadecimal
digits are read, and no text makes a parser slice off a character boundary. -/
theorem hexTexts_spec :
    (∀ id, DeviceId.parse (DeviceId.toHex id) = some (.ok id)) ∧
    (∀ text, ∃ result, DeviceId.parse text = some result ∧
      ((∃ id, result = .ok id) ↔ IsHex 32 (text.filter (· ≠ '-'))) ∧
      ∀ id, result = .ok id → DeviceId.toHex id = toAsciiLowercase (text.filter (· ≠ '-'))) ∧
    (∀ key, keyFromHex (keyToHex key) = some (.ok key)) ∧
    ∀ text, ∃ result, keyFromHex text = some result ∧
      ((∃ key, result = .ok key) ↔ IsHex 64 (trim text)) ∧
      ∀ key, result = .ok key → keyToHex key = toAsciiLowercase (trim text) := by
  refine ⟨?_, ?_, ?_, ?_⟩
  · intro id
    have hdash : (DeviceId.toHex id).filter (· ≠ '-') = DeviceId.toHex id := by
      refine List.filter_eq_self.mpr fun c hc => ?_
      have hdigit := (hexText_hexdigits _ c hc).1
      have hne : c ≠ '-' := by
        rintro rfl
        exact nomatch hdigit
      simpa using hne
    rw [DeviceId.parse, hdash]
    exact parseBytes_hexText _ _ id
  · exact fun text => parseBytes_spec _ _ _
  · intro key
    rw [keyFromHex, keyToHex, trim_eq_self fun c hc => (hexText_hexdigits _ c hc).2]
    exact parseBytes_hexText _ _ key
  · exact fun text => parseBytes_spec _ _ _

example : DeviceId.parse "00112233-4455-6677-8899-AAbbccddeeff".toList =
    some (.ok #v[0x00, 0x11, 0x22, 0x33, 0x44, 0x55, 0x66, 0x77, 0x88, 0x99, 0xAA, 0xBB, 0xCC, 0xDD,
      0xEE, 0xFF]) := by
  decide

end SideWire.HexTexts
