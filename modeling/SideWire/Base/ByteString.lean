import Mathlib.Data.List.Basic
import Mathlib.Data.List.Induction
import Mathlib.Tactic.Ring

/-!
Byte strings, numbers of fixed width in network byte order, and the texts of
bytes and numbers that protocols put into their messages.
-/

namespace SideWire.ByteString

abbrev Bytes := List UInt8

/-- The `width` low bytes of `value`, most significant first. -/
def bigEndian : Nat → Nat → Bytes
  | 0, _ => []
  | width + 1, value => UInt8.ofNat (value / 256 ^ width) :: bigEndian width value

def ofBigEndian (bytes : Bytes) : Nat :=
  bytes.foldl (fun value byte => value * 256 + byte.toNat) 0

@[simp] theorem length_bigEndian (width value : Nat) :
    (bigEndian width value).length = width := by
  induction width with
  | zero => rfl
  | succ width ih => simp [bigEndian, ih]

theorem foldl_bigEndian (width value start : Nat) :
    (bigEndian width value).foldl (fun value byte => value * 256 + byte.toNat) start =
      start * 256 ^ width + value % 256 ^ width := by
  induction width generalizing start with
  | zero => simp [bigEndian, Nat.mod_one]
  | succ width ih =>
      have hbyte : (UInt8.ofNat (value / 256 ^ width)).toNat =
          value / 256 ^ width % 256 := by
        simp
      have hsplit := Nat.mod_mul (x := value) (a := 256 ^ width) (b := 256)
      rw [bigEndian, List.foldl_cons, ih, hbyte, pow_succ, hsplit]
      ring

theorem ofBigEndian_bigEndian (width value : Nat) (h : value < 256 ^ width) :
    ofBigEndian (bigEndian width value) = value := by
  rw [ofBigEndian, foldl_bigEndian, Nat.zero_mul, Nat.zero_add, Nat.mod_eq_of_lt h]

theorem ofBigEndian_append_singleton (bytes : Bytes) (last : UInt8) :
    ofBigEndian (bytes ++ [last]) = ofBigEndian bytes * 256 + last.toNat := by
  rw [ofBigEndian, List.foldl_append]
  rfl

theorem ofBigEndian_lt (bytes : Bytes) : ofBigEndian bytes < 256 ^ bytes.length := by
  induction bytes using List.reverseRecOn with
  | nil => simp [ofBigEndian]
  | append_singleton bytes last ih =>
      have hlast := last.toNat_lt
      rw [ofBigEndian_append_singleton, List.length_append, List.length_singleton, pow_succ]
      omega

theorem bigEndian_succ (width value : Nat) :
    bigEndian (width + 1) value = bigEndian width (value / 256) ++ [UInt8.ofNat value] := by
  induction width generalizing value with
  | zero => simp [bigEndian]
  | succ width ih =>
      have hhigh : value / 256 ^ (width + 1) = value / 256 / 256 ^ width := by
        rw [Nat.div_div_eq_div_mul, pow_succ, Nat.mul_comm]
      rw [bigEndian, ih, hhigh]
      rfl

theorem bigEndian_ofBigEndian (bytes : Bytes) :
    bigEndian bytes.length (ofBigEndian bytes) = bytes := by
  induction bytes using List.reverseRecOn with
  | nil => rfl
  | append_singleton bytes last ih =>
      have hlast := last.toNat_lt
      have hdiv : (ofBigEndian bytes * 256 + last.toNat) / 256 = ofBigEndian bytes := by omega
      have hmod : UInt8.ofNat (ofBigEndian bytes * 256 + last.toNat) = last := by
        apply UInt8.toNat_inj.mp
        rw [UInt8.toNat_ofNat']
        omega
      rw [List.length_append, List.length_singleton, bigEndian_succ,
        ofBigEndian_append_singleton, hdiv, hmod, ih]

theorem bigEndian_ofBigEndian_of_length {bytes : Bytes} {width : Nat}
    (h : bytes.length = width) : bigEndian width (ofBigEndian bytes) = bytes := by
  rw [← h, bigEndian_ofBigEndian]

theorem ofBigEndian_lt_of_length {bytes : Bytes} {width : Nat} (h : bytes.length = width) :
    ofBigEndian bytes < 256 ^ width := h ▸ ofBigEndian_lt bytes

/-- Two lower-case hexadecimal digits. -/
def hexByte (byte : UInt8) : List Char :=
  [Nat.digitChar (byte.toNat / 16), Nat.digitChar (byte.toNat % 16)]

def hexText (bytes : Bytes) : List Char := bytes.flatMap hexByte

theorem toLower_digitChar : ∀ n < 16, (Nat.digitChar n).toLower = Nat.digitChar n := by
  decide

@[simp] theorem length_hexText (bytes : Bytes) :
    (hexText bytes).length = 2 * bytes.length := by
  induction bytes with
  | nil => rfl
  | cons byte bytes ih =>
      simp only [hexText, List.flatMap_cons, List.length_append, List.length_cons] at ih ⊢
      rw [ih]
      simp only [hexByte, List.length_cons, List.length_nil]
      omega

theorem digitChar_inj : ∀ m < 16, ∀ n < 16, Nat.digitChar m = Nat.digitChar n → m = n := by
  decide

theorem hexByte_inj {a b : UInt8} (h : hexByte a = hexByte b) : a = b := by
  have ha := a.toNat_lt
  have hb := b.toNat_lt
  simp only [hexByte, List.cons.injEq, and_true] at h
  have hhigh := digitChar_inj _ (by omega) _ (by omega) h.1
  have hlow := digitChar_inj _ (by omega) _ (by omega) h.2
  exact UInt8.toNat_inj.mp (by omega)

theorem hexText_inj {xs ys : Bytes} (h : hexText xs = hexText ys) : xs = ys := by
  induction xs generalizing ys with
  | nil =>
      have hlen := congrArg List.length h
      simp only [length_hexText, List.length_nil] at hlen
      exact (List.length_eq_zero_iff.mp (by omega)).symm
  | cons x xs ih =>
      cases ys with
      | nil =>
          have hlen := congrArg List.length h
          simp only [length_hexText, List.length_nil, List.length_cons] at hlen
          omega
      | cons y ys =>
          obtain ⟨hhead, htail⟩ := List.append_inj h rfl
          rw [hexByte_inj hhead, ih htail]

/-- A number in decimal, as `format!` prints it. -/
def decimalText (value : Nat) : List Char := Nat.toDigits 10 value

theorem decimalText_inj {m n : Nat} (h : decimalText m = decimalText n) : m = n := by
  have hvalue := congrArg (fun digits => Nat.ofDigitChars 10 digits 0) h
  simpa [decimalText] using hvalue

theorem not_mem_decimalText {c : Char} (hc : c.isDigit = false) (value : Nat) :
    c ∉ decimalText value := by
  intro hmem
  have hdigit := Nat.isDigit_of_mem_toDigits (by decide) (by decide) hmem
  simp [hc] at hdigit

theorem append_cons_inj {c : Char} {xs ys rest rest' : List Char} (hxs : c ∉ xs)
    (hys : c ∉ ys) (h : xs ++ c :: rest = ys ++ c :: rest') : xs = ys ∧ rest = rest' := by
  induction xs generalizing ys with
  | nil =>
      cases ys with
      | nil => exact ⟨rfl, (List.cons.inj h).2⟩
      | cons y ys =>
          obtain ⟨rfl, _⟩ := List.cons.inj h
          exact (hys List.mem_cons_self).elim
  | cons x xs ih =>
      cases ys with
      | nil =>
          obtain ⟨rfl, _⟩ := List.cons.inj h
          exact (hxs List.mem_cons_self).elim
      | cons y ys =>
          obtain ⟨rfl, htail⟩ := List.cons.inj h
          obtain ⟨rfl, hrest⟩ := ih (fun hmem => hxs (List.mem_cons_of_mem _ hmem))
            (fun hmem => hys (List.mem_cons_of_mem _ hmem)) htail
          exact ⟨rfl, hrest⟩

/-- The UTF-8 bytes of a text. -/
def intoBytes (text : List Char) : Bytes := (String.ofList text).toByteArray.data.toList

theorem intoBytes_inj {xs ys : List Char} (h : intoBytes xs = intoBytes ys) : xs = ys := by
  have hdata : (String.ofList xs).toByteArray.data = (String.ofList ys).toByteArray.data :=
    Array.toList_inj.mp h
  have hbytes : (String.ofList xs).toByteArray = (String.ofList ys).toByteArray :=
    ByteArray.ext hdata
  exact String.ofList_injective (String.toByteArray_inj.mp hbytes)

end SideWire.ByteString
