import SideWire.Base.ByteString

/-!
Identities and the pairing secrets that host and device keep, with the texts they are
stored as.
-/

namespace SideWire.PairingStore

open SideWire.ByteString

abbrev Text := List Char

abbrev DeviceId := Vector UInt8 16
abbrev Key := Vector UInt8 32

def DeviceId.toHex (id : DeviceId) : Text := hexText id.toList

def DeviceId.short (id : DeviceId) : Text := (DeviceId.toHex id).take 8

theorem DeviceId.toHex_inj {a b : DeviceId} (h : DeviceId.toHex a = DeviceId.toHex b) :
    a = b :=
  Vector.toList_inj.mp (hexText_inj h)

@[simp] theorem DeviceId.length_toHex (id : DeviceId) : (DeviceId.toHex id).length = 32 := by
  simp [DeviceId.toHex]

/-- The characters with the Unicode property `White_Space`. -/
def isWhitespace (c : Char) : Bool :=
  (0x09 ≤ c.toNat && c.toNat ≤ 0x0D) || c.toNat == 0x20 || c.toNat == 0x85 ||
    c.toNat == 0xA0 || c.toNat == 0x1680 || (0x2000 ≤ c.toNat && c.toNat ≤ 0x200A) ||
    c.toNat == 0x2028 || c.toNat == 0x2029 || c.toNat == 0x202F || c.toNat == 0x205F ||
    c.toNat == 0x3000

/-- `str::trim`. -/
def trim (text : Text) : Text :=
  ((text.dropWhile isWhitespace).reverse.dropWhile isWhitespace).reverse

/-- `str::to_ascii_lowercase`. -/
def toAsciiLowercase (text : Text) : Text := text.map Char.toLower

/-- `str::eq_ignore_ascii_case`. -/
def eqIgnoreAsciiCase (a b : Text) : Bool := toAsciiLowercase a == toAsciiLowercase b

def isAsciiHexdigit (c : Char) : Bool :=
  ('0' ≤ c && c ≤ '9') || ('a' ≤ c && c ≤ 'f') || ('A' ≤ c && c ≤ 'F')

def hexValue (c : Char) : Nat :=
  if c ≤ '9' then c.toNat - '0'.toNat
  else if c ≤ 'F' then c.toNat - 'A'.toNat + 10
  else c.toNat - 'a'.toNat + 10

def keyFromHex (value : Text) : Except String Key :=
  let digits := trim value
  if digits.length ≠ 64 ∨ digits.all isAsciiHexdigit = false then
    .error "security key must contain 64 hexadecimal digits"
  else
    .ok (Vector.ofFn fun index : Fin 32 =>
      UInt8.ofNat (16 * hexValue (digits.getD (2 * index) '0') +
        hexValue (digits.getD (2 * index + 1) '0')))

def keyToHex (key : Key) : Text := hexText key.toList

section KeyTexts

theorem digitChar_hexdigit : ∀ n < 16,
    isAsciiHexdigit (Nat.digitChar n) = true ∧ isWhitespace (Nat.digitChar n) = false ∧
      hexValue (Nat.digitChar n) = n := by
  decide

theorem hexText_hexdigits (bytes : Bytes) :
    ∀ c ∈ hexText bytes, isAsciiHexdigit c = true ∧ isWhitespace c = false := by
  intro c hc
  obtain ⟨byte, -, hbyte⟩ := List.mem_flatMap.mp hc
  have hlt := byte.toNat_lt
  simp only [hexByte, List.mem_cons, List.not_mem_nil, or_false] at hbyte
  rcases hbyte with rfl | rfl
  · obtain ⟨hdigit, hspace, -⟩ := digitChar_hexdigit (byte.toNat / 16) (by omega)
    exact ⟨hdigit, hspace⟩
  · obtain ⟨hdigit, hspace, -⟩ := digitChar_hexdigit (byte.toNat % 16) (by omega)
    exact ⟨hdigit, hspace⟩

theorem trim_eq_self {text : Text} (h : ∀ c ∈ text, isWhitespace c = false) :
    trim text = text := by
  have hdrop : ∀ text : Text, (∀ c ∈ text, isWhitespace c = false) →
      text.dropWhile isWhitespace = text := by
    intro text h
    cases text with
    | nil => rfl
    | cons c text => rw [List.dropWhile_cons_of_neg (by simp [h c List.mem_cons_self])]
  rw [trim, hdrop text h, hdrop _ (fun c hc => h c (List.mem_reverse.mp hc)), List.reverse_reverse]

theorem getD_hexText (bytes : Bytes) {index : Nat} (h : index < bytes.length) :
    (hexText bytes).getD (2 * index) '0' = Nat.digitChar (bytes[index].toNat / 16) ∧
      (hexText bytes).getD (2 * index + 1) '0' = Nat.digitChar (bytes[index].toNat % 16) := by
  induction bytes generalizing index with
  | nil => simp at h
  | cons byte bytes ih =>
      have hcons : hexText (byte :: bytes) =
          Nat.digitChar (byte.toNat / 16) :: Nat.digitChar (byte.toNat % 16) :: hexText bytes := rfl
      rw [hcons]
      cases index with
      | zero => exact ⟨rfl, rfl⟩
      | succ index => exact ih (Nat.lt_of_succ_lt_succ h)

theorem keyFromHex_eq {value digits : Text} (htrim : trim value = digits)
    (hlen : digits.length = 64) (hall : digits.all isAsciiHexdigit = true) :
    keyFromHex value = .ok (Vector.ofFn fun index : Fin 32 =>
      UInt8.ofNat (16 * hexValue (digits.getD (2 * index) '0') +
        hexValue (digits.getD (2 * index + 1) '0'))) := by
  subst htrim
  rw [keyFromHex, if_neg]
  simp [hlen, hall]

theorem hexValue_hexText (key : Key) (index : Fin 32) :
    UInt8.ofNat (16 * hexValue ((hexText key.toList).getD (2 * index) '0') +
      hexValue ((hexText key.toList).getD (2 * index + 1) '0')) = key[index] := by
  have hindex : index.val < key.toList.length := by
    rw [Vector.length_toList]
    exact index.isLt
  obtain ⟨hhigh, hlow⟩ := getD_hexText key.toList hindex
  have hlt := (key.toList[index.val]).toNat_lt
  rw [hhigh, hlow, (digitChar_hexdigit _ (by omega)).2.2, (digitChar_hexdigit _ (by omega)).2.2,
    Nat.div_add_mod, UInt8.ofNat_toNat]
  exact Vector.getElem_toList _

theorem keyFromHex_keyToHex (key : Key) : keyFromHex (keyToHex key) = .ok key := by
  have hhex := hexText_hexdigits key.toList
  have hlen : (hexText key.toList).length = 64 := by
    rw [length_hexText, Vector.length_toList]
  rw [keyToHex, keyFromHex_eq (trim_eq_self fun c hc => (hhex c hc).2) hlen
    (List.all_eq_true.mpr fun c hc => (hhex c hc).1)]
  simp only [hexValue_hexText]
  exact congrArg Except.ok (Vector.ext fun index hindex => Vector.getElem_ofFn _)

end KeyTexts

/-- One line with its line break taken off. -/
def stripCarriageReturn (line : Text) : Text :=
  if line.getLast? = some '\r' then line.dropLast else line

/-- `str::lines`, with the start of the current line. -/
def linesFrom (line : Text) : Text → List Text
  | [] => if line = [] then [] else [line]
  | c :: rest =>
      if c = '\n' then stripCarriageReturn line :: linesFrom [] rest
      else linesFrom (line ++ [c]) rest

def lines (text : Text) : List Text := linesFrom [] text

/-- `str::strip_prefix`. -/
def stripStart (start text : Text) : Option Text :=
  if start.isPrefixOf text then some (text.drop start.length) else none

theorem stripStart_eq_some_iff {start text rest : Text} :
    stripStart start text = some rest ↔ text = start ++ rest := by
  rw [stripStart, Option.ite_none_right_eq_some, List.isPrefixOf_iff_prefix, Option.some.injEq]
  constructor
  · rintro ⟨⟨rest', rfl⟩, hrest⟩
    rw [← hrest, List.drop_left]
  · rintro rfl
    exact ⟨List.prefix_append start rest, List.drop_left⟩

/-! The store of the host. -/

structure TrustedDevice where
  id : DeviceId
  name : Text
  sharedSecret : Text

structure TrustStore where
  hostId : Option DeviceId
  devices : Text → Option TrustedDevice

/-- What the calls of the trust module meet: the store as each of them loads it, the
identity drawn for a host that has none, and whether it can be saved. -/
structure Trust where
  storeForId : Except String TrustStore
  storeForSecret : Except String TrustStore
  randomId : DeviceId
  saveStore : TrustStore → Except String Unit

namespace Trust

def hostId (trust : Trust) : Except String DeviceId := do
  let store ← trust.storeForId
  match store.hostId with
  | some id => .ok id
  | none =>
      trust.saveStore { store with hostId := some trust.randomId }
      .ok trust.randomId

def deviceSecret (trust : Trust) (id : DeviceId) : Except String (Option Key) := do
  let store ← trust.storeForSecret
  match store.devices (DeviceId.toHex id) with
  | none => .ok none
  | some device =>
      let key ← keyFromHex device.sharedSecret
      .ok (some key)

end Trust

/-! The store of the device. -/

/-- The files of a pairs directory by name: what reading each existing one gives. -/
abbrev PairsDir := Text → Option (Except String Text)

def pairedPath (hostId : DeviceId) : Text := DeviceId.toHex hostId ++ ".pair".toList

def pairedHostSecret (pairsDir : Option PairsDir) (hostId : DeviceId) :
    Except String (Option Key) :=
  match pairsDir with
  | none => .ok none
  | some dir =>
      match dir (pairedPath hostId) with
      | none => .ok none
      | some (.error error) => .error error
      | some (.ok text) =>
          match (lines text).findSome? (stripStart "secret=".toList) with
          | none => .ok none
          | some secret => do
              let key ← keyFromHex secret
              .ok (some key)

end SideWire.PairingStore
