import Mathlib.Data.List.Nodup
import SideWire.PairingRecords
import SideWire.ShellQuoting

/-!
The list of paired hosts on the page of the module: what `paired` of `sidewirectl` prints of the
records of the device, the rows that `refreshPaired` makes of it, and the `unpair` behind the
button of a row. Every command first copies the records that an older version of the module has
left; the copies and removals succeed.
-/

namespace SideWire.PairedPage

open SideWire.ByteString
open SideWire.PairingStore
open SideWire.PairingRecords
open SideWire.ShellWords (splitWords)
open SideWire.ShellQuoting (Echo Plain charKind)

/-! `sidewirectl`. -/

def pairEnding : Text := ".pair".toList

/-- `${text%ending}`. -/
def stripEnd (ending text : Text) : Text :=
  if ending.isSuffixOf text then text.take (text.length - ending.length) else text

/-- `$(sed -n 's/^name=//p' "$file" | head -n 1)`, for what reading the file gives. -/
def recordedName : Except String Text → Text
  | .error _ => []
  | .ok text => ((text.splitOn '\n').findSome? (stripStart "name=".toList)).getD []

/-- The names that `*.pair` stands for. -/
def isPairFile (name : Text) : Bool := pairEnding.isSuffixOf name && name.head? != some '.'

/-- `ensure_state`, with the files of the older version. -/
def ensureState (legacy pairsDir : PairsDir) : PairsDir :=
  fun name => if isPairFile name then (pairsDir name).or (legacy name) else pairsDir name

/-- What `*.pair` expands to; where it stands for no file, that is the pattern itself. -/
inductive Expands (pairsDir : PairsDir) : List Text → Prop
  | found {names : List Text} : names ≠ [] → names.Nodup →
      (∀ name, name ∈ names ↔ (pairsDir name).isSome ∧ isPairFile name = true) →
      Expands pairsDir names
  | pattern : (∀ name, isPairFile name = true → pairsDir name = none) →
      Expands pairsDir ["*.pair".toList]

/-- `paired`, with the names that the pattern for the files expands to. -/
def paired (echo : Echo) (legacy pairsDir : PairsDir) (names : List Text) : Text :=
  names.flatMap fun name =>
    match ensureState legacy pairsDir name with
    | none => []
    | some file => echo.print (stripEnd pairEnding name ++ '|' :: recordedName file)

/-- `unpair`, with its exit code. -/
def unpair (legacy pairsDir : PairsDir) (id : Text) : Nat × PairsDir :=
  let pairsDir := ensureState legacy pairsDir
  if id = [] ∨ id.all isAsciiHexdigit = false then (2, pairsDir)
  else
    match pairsDir (id ++ pairEnding) with
    | none => (1, pairsDir)
    | some _ => (0, Function.update pairsDir (id ++ pairEnding) none)

/-- `unpair_all`. -/
def unpairAll (legacy pairsDir : PairsDir) : PairsDir :=
  fun name => if isPairFile name then none else ensureState legacy pairsDir name

/-! The page. -/

/-- The white space of `String.prototype.trim`. -/
def isJsSpace (c : Char) : Bool :=
  (0x09 ≤ c.toNat && c.toNat ≤ 0x0D) || c.toNat == 0x20 || c.toNat == 0xA0 ||
    c.toNat == 0x1680 || (0x2000 ≤ c.toNat && c.toNat ≤ 0x200A) || c.toNat == 0x2028 ||
    c.toNat == 0x2029 || c.toNat == 0x202F || c.toNat == 0x205F || c.toNat == 0x3000 ||
    c.toNat == 0xFEFF

def jsTrimEnd (text : Text) : Text := (text.reverse.dropWhile isJsSpace).reverse

def jsTrim (text : Text) : Text := jsTrimEnd (text.dropWhile isJsSpace)

/-- A row of the list: the id behind its button, and the two texts that it shows. -/
structure Row where
  id : Text
  title : Text
  short : Text
  deriving DecidableEq

def title (name : Text) : Text := if name = [] then "PC".toList else name

def row (text : Text) : Row :=
  match text.splitOn '|' with
  | [] => ⟨[], title [], []⟩
  | id :: rest => ⟨id, title (['|'].intercalate rest), id.take 8⟩

/-- `refreshPaired`, with the trim in `sh`. -/
def refreshPaired (stdout : Text) : List Row :=
  let text := jsTrim stdout
  if text = [] then [] else ((text.splitOn '\n').filter (· ≠ [])).map row

/-- What stands behind the path of `sidewirectl` in the command of a row's button. -/
def removeArgs (row : Row) : Text := "unpair ".toList ++ row.id

/-! The paired hosts. -/

/-- What changes the files. -/
inductive Change
  | stored (store : Store)
  /-- `paired`, `pair` and the commands for the daemon. -/
  | ensured
  | unpaired (id : Text)
  | allUnpaired
  deriving DecidableEq

def Change.apply (legacy pairsDir : PairsDir) : Change → PairsDir
  | .stored store => storePairedHost pairsDir store
  | .ensured => ensureState legacy pairsDir
  | .unpaired id => (PairedPage.unpair legacy pairsDir id).2
  | .allUnpaired => PairedPage.unpairAll legacy pairsDir

/-- The hosts that are paired, each with its last name and secret. -/
abbrev Hosts := DeviceId → Option (Text × Key)

def ensureHosts (old hosts : Hosts) : Hosts := fun host => (hosts host).or (old host)

def Change.applyHosts (old hosts : Hosts) : Change → Hosts
  | .stored store => Function.update hosts store.hostId (some (store.hostName, store.secret))
  | .ensured => ensureHosts old hosts
  | .unpaired id =>
      fun host => if DeviceId.toHex host = id then none else ensureHosts old hosts host
  | .allUnpaired => fun _ => none

def pairsDirOf (legacy : PairsDir) (changes : List Change) : PairsDir :=
  changes.foldl (Change.apply legacy) fun _ => none

def hostsOf (old : Hosts) (changes : List Change) : Hosts :=
  changes.foldl (Change.applyHosts old) fun _ => none

/-- The files are the records of the hosts. -/
structure Represents (pairsDir : PairsDir) (hosts : Hosts) : Prop where
  file : ∀ host, pairsDir (pairedPath host) =
    (hosts host).map fun (name, secret) => .ok (record name secret)
  only : ∀ name, (pairsDir name).isSome → ∃ host, name = pairedPath host

section Represents

variable {legacy pairsDir : PairsDir} {old hosts : Hosts}

theorem toHex_spec (host : DeviceId) :
    DeviceId.toHex host ≠ [] ∧ (DeviceId.toHex host).all isAsciiHexdigit = true := by
  refine ⟨fun h => ?_, List.all_eq_true.mpr fun c hc => (hexText_hexdigits _ c hc).1⟩
  have hlength := DeviceId.length_toHex host
  rw [h] at hlength
  cases hlength

theorem isSuffixOf_pairedPath (host : DeviceId) :
    pairEnding.isSuffixOf (pairedPath host) = true :=
  List.isSuffixOf_iff_suffix.mpr ⟨DeviceId.toHex host, rfl⟩

theorem isPairFile_pairedPath (host : DeviceId) : isPairFile (pairedPath host) = true := by
  obtain ⟨c, rest, heq⟩ := List.exists_cons_of_ne_nil (toHex_spec host).1
  have hc := List.all_eq_true.mp (toHex_spec host).2 c (heq ▸ List.mem_cons_self)
  have hpath : (pairedPath host).head? = some c := by
    rw [pairedPath, heq]
    rfl
  rw [isPairFile, isSuffixOf_pairedPath, hpath, Bool.true_and, bne_iff_ne]
  intro hdot
  obtain rfl := Option.some.inj hdot
  revert hc
  decide

theorem Represents.secret (h : Represents pairsDir hosts) (host : DeviceId) :
    pairedHostSecret (some pairsDir) host = .ok ((hosts host).map Prod.snd) := by
  simp only [pairedHostSecret, h.file]
  cases hosts host with
  | none => rfl
  | some entry =>
      simp only [Option.map_some, findSome_record, keyFromHex_keyToHex]
      rfl

theorem represents_empty : Represents (fun _ => none) fun _ => none :=
  ⟨fun _ => rfl, fun _ hname => by cases hname⟩

theorem Represents.update (h : Represents pairsDir hosts) (host : DeviceId)
    (entry : Option (Text × Key)) :
    Represents
      (Function.update pairsDir (pairedPath host)
        (entry.map fun (name, secret) => .ok (record name secret)))
      (Function.update hosts host entry) where
  file other := by
    by_cases hsame : other = host
    · rw [hsame, Function.update_self, Function.update_self]
    · have hpath : pairedPath other ≠ pairedPath host := fun h => hsame (pairedPath_inj h)
      rw [Function.update_of_ne hpath, Function.update_of_ne hsame]
      exact h.file other
  only name hname := by
    by_cases hsame : name = pairedPath host
    · exact ⟨_, hsame⟩
    · rw [Function.update_of_ne hsame] at hname
      exact h.only name hname

theorem Represents.ensure (hlegacy : Represents legacy old) (h : Represents pairsDir hosts) :
    Represents (ensureState legacy pairsDir) (ensureHosts old hosts) where
  file host := by
    rw [ensureState, if_pos (isPairFile_pairedPath host), h.file, hlegacy.file, ensureHosts]
    cases hosts host <;> rfl
  only name hname := by
    unfold ensureState at hname
    split at hname
    · rw [Option.isSome_or, Bool.or_eq_true] at hname
      exact hname.elim (h.only name) (hlegacy.only name)
    · exact h.only name hname

theorem Represents.unpair (hlegacy : Represents legacy old) (h : Represents pairsDir hosts)
    (id : Text) :
    (∃ host, DeviceId.toHex host = id ∧ unpair legacy pairsDir id =
        (0, Function.update (ensureState legacy pairsDir) (pairedPath host) none)) ∨
      (∀ host, DeviceId.toHex host = id → ensureHosts old hosts host = none) ∧
        ∃ code ≠ 0, unpair legacy pairsDir id = (code, ensureState legacy pairsDir) := by
  have hensured := hlegacy.ensure h
  unfold PairedPage.unpair
  dsimp only
  split
  · rename_i hbad
    refine .inr ⟨?_, 2, by decide, rfl⟩
    rintro host rfl
    obtain ⟨hne, hhex⟩ := toHex_spec host
    rcases hbad with hnil | hall
    · exact absurd hnil hne
    · rw [hhex] at hall
      cases hall
  · split
    · rename_i hnone
      refine .inr ⟨?_, 1, by decide, rfl⟩
      rintro host rfl
      have hpath : pairedPath host = DeviceId.toHex host ++ pairEnding := rfl
      have hfile := hensured.file host
      rw [hpath, hnone] at hfile
      exact Option.map_eq_none_iff.mp hfile.symm
    · rename_i file hsome
      obtain ⟨host, hpath⟩ := hensured.only (id ++ pairEnding) (by rw [hsome]; rfl)
      have hid : DeviceId.toHex host = id := List.append_cancel_right hpath.symm
      exact .inl ⟨host, hid, by rw [hpath]⟩

theorem Represents.apply (hlegacy : Represents legacy old) (h : Represents pairsDir hosts)
    (change : Change) :
    Represents (change.apply legacy pairsDir) (change.applyHosts old hosts) := by
  cases change with
  | stored store => exact h.update store.hostId (some (store.hostName, store.secret))
  | ensured => exact hlegacy.ensure h
  | unpaired id =>
      simp only [Change.apply, Change.applyHosts]
      rcases hlegacy.unpair h id with ⟨host, rfl, hok⟩ | ⟨hnone, code, -, herror⟩
      · have hhosts : (fun other => if DeviceId.toHex other = DeviceId.toHex host then none
            else ensureHosts old hosts other) =
              Function.update (ensureHosts old hosts) host none := by
          funext other
          by_cases hsame : other = host
          · simp [hsame]
          · rw [Function.update_of_ne hsame, if_neg fun heq => hsame (DeviceId.toHex_inj heq)]
        rw [hok, hhosts]
        exact (hlegacy.ensure h).update host none
      · have hhosts : (fun other => if DeviceId.toHex other = id then none
            else ensureHosts old hosts other) = ensureHosts old hosts := by
          funext other
          split
          · exact (hnone other ‹_›).symm
          · rfl
        rw [herror, hhosts]
        exact hlegacy.ensure h
  | allUnpaired =>
      refine ⟨fun host => if_pos (isPairFile_pairedPath host), fun name hname => ?_⟩
      refine (hlegacy.ensure h).only name ?_
      simp only [Change.apply, PairedPage.unpairAll] at hname
      split at hname
      · cases hname
      · exact hname

/-- The files after any changes are the records of the hosts that are paired. -/
theorem represents (hlegacy : Represents legacy old) (changes : List Change) :
    Represents (pairsDirOf legacy changes) (hostsOf old changes) := by
  have hall : ∀ pairsDir hosts, Represents pairsDir hosts →
      Represents (changes.foldl (Change.apply legacy) pairsDir)
        (changes.foldl (Change.applyHosts old) hosts) := by
    induction changes with
    | nil => exact fun _ _ h => h
    | cons change changes ih => exact fun _ _ h => ih _ _ (hlegacy.apply h change)
  exact hall _ _ represents_empty

end Represents

section Changes

variable {legacy : PairsDir} {old : Hosts} {host : DeviceId}

theorem hostsOf_append (old : Hosts) (changes : List Change) (change : Change) :
    hostsOf old (changes ++ [change]) = change.applyHosts old (hostsOf old changes) := by
  rw [hostsOf, List.foldl_append]
  rfl

theorem exists_stored {changes : List Change} {entry : Text × Key}
    (h : hostsOf old changes host = some entry) :
    old host = some entry ∨ ∃ store, .stored store ∈ changes ∧ store.hostName = entry.1 := by
  induction changes using List.reverseRecOn with
  | nil => cases h
  | append_singleton changes change ih =>
      have hensured (hentry : ensureHosts old (hostsOf old changes) host = some entry) :
          old host = some entry ∨
            ∃ store, .stored store ∈ changes ++ [change] ∧ store.hostName = entry.1 := by
        rcases Option.or_eq_some_iff.mp hentry with hentry | ⟨-, hold⟩
        · obtain hold | ⟨store, hmem, hname⟩ := ih hentry
          · exact .inl hold
          · exact .inr ⟨store, List.mem_append_left _ hmem, hname⟩
        · exact .inl hold
      rw [hostsOf_append] at h
      cases change with
      | stored store =>
          simp only [Change.applyHosts, Function.update_apply] at h
          split at h
          · cases h
            exact .inr ⟨store, by simp, rfl⟩
          · exact hensured (Option.or_eq_some_iff.mpr (.inl h))
      | ensured => exact hensured h
      | unpaired id =>
          simp only [Change.applyHosts] at h
          split at h
          · cases h
          · exact hensured h
      | allUnpaired => cases h

theorem hostsOf_eq_none (hold : old host = none) {before after : List Change}
    (hbefore : hostsOf old before host = none)
    (hafter : ∀ store, .stored store ∈ after → store.hostId ≠ host) :
    hostsOf old (before ++ after) host = none := by
  induction after using List.reverseRecOn with
  | nil => rwa [List.append_nil]
  | append_singleton after change ih =>
      have hnone := ih fun store hmem => hafter store (List.mem_append_left _ hmem)
      have hensured : ensureHosts old (hostsOf old (before ++ after)) host = none := by
        rw [ensureHosts, hnone, hold]
        rfl
      rw [← List.append_assoc, hostsOf_append]
      cases change with
      | stored store =>
          have hne : host ≠ store.hostId := (hafter store (by simp)).symm
          rw [Change.applyHosts, Function.update_of_ne hne, hnone]
      | ensured => exact hensured
      | unpaired id =>
          simp only [Change.applyHosts, hensured, ite_self]
      | allUnpaired => rfl

/-- The refresh after a removal already has the host as the older version left it; the removal
lasts until the host is paired again exactly if the older version left no record of it. -/
theorem removal_lasts_iff (hlegacy : Represents legacy old) (changes : List Change)
    (host : DeviceId) :
    pairedHostSecret (some (pairsDirOf legacy
        (changes ++ [.unpaired (DeviceId.toHex host)] ++ [.ensured]))) host =
      .ok ((old host).map Prod.snd) ∧
    ((∀ after : List Change, (∀ store, .stored store ∈ after → store.hostId ≠ host) →
      pairedHostSecret (some (pairsDirOf legacy
        (changes ++ [.unpaired (DeviceId.toHex host)] ++ after))) host = .ok none) ↔
      old host = none) := by
  have hremoved : hostsOf old (changes ++ [.unpaired (DeviceId.toHex host)]) host = none := by
    rw [hostsOf_append]
    exact if_pos rfl
  have hrefreshed : pairedHostSecret (some (pairsDirOf legacy
      (changes ++ [.unpaired (DeviceId.toHex host)] ++ [.ensured]))) host =
        .ok ((old host).map Prod.snd) := by
    rw [(represents hlegacy _).secret, hostsOf_append, Change.applyHosts, ensureHosts, hremoved]
    rfl
  refine ⟨hrefreshed, fun h => ?_, fun hold after hafter => ?_⟩
  · have hnone := hrefreshed.symm.trans (h [.ensured] (by simp))
    exact Option.map_eq_none_iff.mp (Except.ok.inj hnone)
  · rw [(represents hlegacy _).secret, hostsOf_eq_none hold hremoved hafter]
    rfl

/-- A host that the older version of the module has been paired with. -/
def desk : Store := ⟨.replicate 16 1, "a|b $(reboot)".toList, .replicate 32 8⟩

def legacyDir : PairsDir := pairsDirOf (fun _ => none) [.stored desk]

def legacyHosts : Hosts := hostsOf (fun _ => none) [.stored desk]

theorem represents_legacyDir : Represents legacyDir legacyHosts := represents represents_empty _

theorem legacyHosts_eq (host : DeviceId) :
    legacyHosts host = if host = desk.hostId then some (desk.hostName, desk.secret) else none := by
  have hstored : legacyHosts =
      Function.update (fun _ => none) desk.hostId (some (desk.hostName, desk.secret)) := rfl
  rw [hstored, Function.update_apply]

def deskRemoved : Change := .unpaired (DeviceId.toHex desk.hostId)

theorem removal_lasts_iff_desk :
    pairedHostSecret (some (pairsDirOf legacyDir ([] ++ [deskRemoved] ++ [.ensured])))
      desk.hostId = .ok (some desk.secret) := by
  have hback := (removal_lasts_iff represents_legacyDir [] desk.hostId).1
  rw [legacyHosts_eq, if_pos rfl] at hback
  exact hback

end Changes

/-! What is printed. -/

/-- The name of a host, as its record has it. -/
def nameOf (hosts : Hosts) (host : DeviceId) : Text :=
  safeName (((hosts host).map Prod.fst).getD [])

/-- What is printed for a host with a name. -/
def lineOf (host : DeviceId) (name : Text) : Text := DeviceId.toHex host ++ '|' :: name

section Lines

variable {legacy pairsDir : PairsDir} {old hosts : Hosts} {echo : Echo}

theorem mem_toHex {host : DeviceId} {c : Char} (h : c ∈ DeviceId.toHex host) :
    ∃ n < 16, c = Nat.digitChar n := by
  obtain ⟨byte, -, hbyte⟩ := List.mem_flatMap.mp h
  have hlt := byte.toNat_lt
  simp only [hexByte, List.mem_cons, List.not_mem_nil, or_false] at hbyte
  rcases hbyte with rfl | rfl
  · exact ⟨_, by omega, rfl⟩
  · exact ⟨_, by omega, rfl⟩

theorem digitChar_spec : ∀ n < 16, charKind (Nat.digitChar n) = .plain ∧
    isJsSpace (Nat.digitChar n) = false ∧
    Nat.digitChar n ∉ ['\\', '\x00', '-', '|', '\n'] := by
  decide

theorem not_mem_toHex {host : DeviceId} {c : Char} (h : c ∈ ['\\', '\x00', '-', '|', '\n']) :
    c ∉ DeviceId.toHex host := by
  intro hmem
  obtain ⟨n, hn, rfl⟩ := mem_toHex hmem
  exact (digitChar_spec n hn).2.2 h

theorem exists_toHex (host : DeviceId) :
    ∃ n rest, n < 16 ∧ DeviceId.toHex host = Nat.digitChar n :: rest := by
  obtain ⟨c, rest, heq⟩ := List.exists_cons_of_ne_nil (toHex_spec host).1
  obtain ⟨n, hn, rfl⟩ := mem_toHex (heq ▸ List.mem_cons_self)
  exact ⟨n, rest, hn, heq⟩

theorem stripEnd_pairedPath (host : DeviceId) :
    stripEnd pairEnding (pairedPath host) = DeviceId.toHex host := by
  rw [stripEnd, if_pos (isSuffixOf_pairedPath host)]
  have hpath : pairedPath host = DeviceId.toHex host ++ pairEnding := rfl
  rw [hpath, List.length_append, Nat.add_sub_cancel, List.take_left]

theorem recordedName_record (name : Text) (secret : Key) :
    recordedName (.ok (record name secret)) = safeName name := by
  have hfeed : '\n' ∉ "name=".toList ++ safeName name := by
    simp [(not_mem_safeName name).1]
  rw [recordedName, record, List.splitOn_append_cons_self_of_not_mem hfeed, List.findSome?_cons,
    stripStart_eq_some_iff.mpr rfl]
  rfl

theorem print_lineOf {name : Text} (host : DeviceId) (hplain : Plain name) :
    echo.print (lineOf host (safeName name)) = lineOf host (safeName name) ++ ['\n'] := by
  have hsafe {c : Char} (hc : c ∈ safeName name) : c ∈ name := List.mem_of_mem_filter hc
  refine echo.print_plain _ ⟨?_, ?_⟩ ?_
  · simp only [lineOf, List.mem_append, List.mem_cons, not_or]
    exact ⟨not_mem_toHex (by decide), by decide, fun hc => hplain.1 (hsafe hc)⟩
  · simp only [lineOf, List.mem_append, List.mem_cons, not_or]
    exact ⟨not_mem_toHex (by decide), by decide, fun hc => hplain.2 (hsafe hc)⟩
  · obtain ⟨n, rest, hn, heq⟩ := exists_toHex host
    rw [lineOf, heq, List.cons_append, List.head?_cons]
    intro hdash
    exact (digitChar_spec n hn).2.2 (by simp [Option.some.inj hdash])

theorem paired_eq (hlegacy : Represents legacy old) (h : Represents pairsDir hosts)
    {ids : List DeviceId} (hids : ∀ host ∈ ids, (ensureHosts old hosts host).isSome)
    (hplain : ∀ host name secret, ensureHosts old hosts host = some (name, secret) → Plain name) :
    paired echo legacy pairsDir (ids.map pairedPath) =
      ids.flatMap fun host => lineOf host (nameOf (ensureHosts old hosts) host) ++ ['\n'] := by
  rw [paired, List.flatMap_map]
  refine List.flatMap_congr fun host hhost => ?_
  obtain ⟨⟨name, secret⟩, hentry⟩ := Option.isSome_iff_exists.mp (hids host hhost)
  have hname : nameOf (ensureHosts old hosts) host = safeName name := by rw [nameOf, hentry]; rfl
  rw [(hlegacy.ensure h).file host, hentry, Option.map_some]
  simp only [stripEnd_pairedPath, recordedName_record]
  rw [hname]
  exact print_lineOf host (hplain host name secret hentry)

end Lines

/-! What is shown. -/

def rowOf (host : DeviceId) (name : Text) : Row :=
  ⟨DeviceId.toHex host, title name, DeviceId.short host⟩

section Rows

theorem jsTrimEnd_append (before : Text) {c : Char} (hc : isJsSpace c = false) (after : Text) :
    jsTrimEnd (before ++ c :: after) = before ++ c :: jsTrimEnd after := by
  have hreverse : (before ++ c :: after).reverse = after.reverse ++ c :: before.reverse := by
    simp
  have hkept : (c :: before.reverse).dropWhile isJsSpace = c :: before.reverse :=
    List.dropWhile_cons_of_neg (by simp [hc])
  rw [jsTrimEnd, jsTrimEnd, hreverse, List.dropWhile_append, hkept]
  split
  · rename_i hempty
    simp [List.isEmpty_iff.mp hempty]
  · simp

theorem jsTrimEnd_feed (text : Text) : jsTrimEnd (text ++ ['\n']) = jsTrimEnd text := by
  have hfeed : isJsSpace '\n' = true := by decide
  rw [jsTrimEnd, List.reverse_append, List.reverse_singleton, List.singleton_append,
    List.dropWhile_cons_of_pos hfeed, jsTrimEnd]

theorem mem_of_mem_jsTrimEnd {text : Text} {c : Char} (h : c ∈ jsTrimEnd text) : c ∈ text := by
  rw [jsTrimEnd, List.mem_reverse] at h
  exact List.mem_reverse.mp ((List.dropWhile_sublist _).mem h)

theorem dropWhile_lineOf (host : DeviceId) (name rest : Text) :
    (lineOf host name ++ rest).dropWhile isJsSpace = lineOf host name ++ rest := by
  obtain ⟨n, digits, hn, heq⟩ := exists_toHex host
  rw [lineOf, heq]
  exact List.dropWhile_cons_of_neg (by simp [(digitChar_spec n hn).2.1])

/-- What `paired` prints for hosts with their names. -/
def printed (entries : List (DeviceId × Text)) : Text :=
  entries.flatMap fun entry => lineOf entry.1 entry.2 ++ ['\n']

theorem jsTrim_printed (front : List (DeviceId × Text)) (last : DeviceId × Text) :
    jsTrim (printed (front ++ [last])) =
      printed front ++ lineOf last.1 (jsTrimEnd last.2) := by
  have hstart : (printed (front ++ [last])).dropWhile isJsSpace = printed (front ++ [last]) := by
    cases front with
    | nil =>
        rw [printed, List.nil_append, List.flatMap_singleton]
        exact dropWhile_lineOf _ _ _
    | cons entry front =>
        rw [printed, List.cons_append, List.flatMap_cons, List.append_assoc]
        exact dropWhile_lineOf _ _ _
  have hsplit : printed (front ++ [last]) =
      (printed front ++ DeviceId.toHex last.1) ++ '|' :: (last.2 ++ ['\n']) := by
    simp [printed, lineOf]
  rw [jsTrim, hstart, hsplit, jsTrimEnd_append _ (by decide), jsTrimEnd_feed, lineOf,
    List.append_assoc]

theorem row_lineOf (host : DeviceId) (name : Text) : row (lineOf host name) = rowOf host name := by
  rw [row, lineOf, List.splitOn_append_cons_self_of_not_mem (not_mem_toHex (by decide))]
  simp only [List.intercalate_splitOn]
  rfl

theorem not_mem_lineOf {host : DeviceId} {name : Text} (h : '\n' ∉ name) :
    '\n' ∉ lineOf host name := by
  simp only [lineOf, List.mem_append, List.mem_cons, not_or]
  exact ⟨not_mem_toHex (by decide), by decide, h⟩

theorem splitOn_printed {front : List (DeviceId × Text)} {last : Text}
    (hfront : ∀ entry ∈ front, '\n' ∉ entry.2) (hlast : '\n' ∉ last) :
    (printed front ++ last).splitOn '\n' =
      (front.map fun entry => lineOf entry.1 entry.2) ++ [last] := by
  induction front with
  | nil => exact List.splitOn_eq_singleton hlast
  | cons entry front ih =>
      obtain ⟨hentry, hrest⟩ := List.forall_mem_cons.mp hfront
      have hcons : printed (entry :: front) = lineOf entry.1 entry.2 ++ '\n' :: printed front := by
        simp [printed]
      rw [hcons, List.append_assoc, List.cons_append,
        List.splitOn_append_cons_self_of_not_mem (not_mem_lineOf hentry), ih hrest]
      rfl

theorem lineOf_ne_nil (host : DeviceId) (name : Text) : lineOf host name ≠ [] := by
  simp [lineOf]

theorem refreshPaired_printed {front : List (DeviceId × Text)} {last : DeviceId × Text}
    (hfront : ∀ entry ∈ front, '\n' ∉ entry.2) (hlast : '\n' ∉ last.2) :
    refreshPaired (printed (front ++ [last])) =
      (front.map fun entry => rowOf entry.1 entry.2) ++ [rowOf last.1 (jsTrimEnd last.2)] := by
  have htrimmed : '\n' ∉ lineOf last.1 (jsTrimEnd last.2) :=
    not_mem_lineOf fun hmem => hlast (mem_of_mem_jsTrimEnd hmem)
  have hne : printed front ++ lineOf last.1 (jsTrimEnd last.2) ≠ [] := by
    simp [lineOf_ne_nil]
  have hall : ∀ line ∈ (front.map fun entry => lineOf entry.1 entry.2) ++
      [lineOf last.1 (jsTrimEnd last.2)], decide (line ≠ []) = true :=
    List.forall_mem_append.mpr
      ⟨List.forall_mem_map.mpr fun entry _ => decide_eq_true (lineOf_ne_nil _ _),
        List.forall_mem_singleton.mpr (decide_eq_true (lineOf_ne_nil _ _))⟩
  rw [refreshPaired, jsTrim_printed]
  simp only [if_neg hne]
  rw [splitOn_printed hfront htrimmed, List.filter_eq_self.mpr hall, List.map_append, List.map_map]
  simp [row_lineOf, Function.comp_def]

theorem refreshPaired_ids {hosts : Hosts} (ids : List DeviceId) :
    refreshPaired (ids.flatMap fun host => lineOf host (nameOf hosts host) ++ ['\n']) =
      (ids.dropLast.map fun host => rowOf host (nameOf hosts host)) ++
        (ids.getLast?.toList.map fun host => rowOf host (jsTrimEnd (nameOf hosts host))) := by
  have hentries (ids : List DeviceId) :
      (ids.flatMap fun host => lineOf host (nameOf hosts host) ++ ['\n']) =
        printed (ids.map fun host => (host, nameOf hosts host)) := by
    rw [printed, List.flatMap_map]
  have hfeed (host : DeviceId) : '\n' ∉ nameOf hosts host := (not_mem_safeName _).1
  rcases List.eq_nil_or_concat ids with rfl | ⟨front, last, rfl⟩
  · rfl
  · rw [List.concat_eq_append, hentries, List.map_append, List.map_singleton, refreshPaired_printed
      (List.forall_mem_map.mpr fun host _ => hfeed host) (hfeed last), List.map_map]
    simp

end Rows

section Page

variable {legacy pairsDir : PairsDir} {old hosts : Hosts} {changes : List Change}

theorem expands_ids (h : Represents pairsDir hosts) {ids : List DeviceId} (hne : ids ≠ [])
    (hnodup : ids.Nodup) (hids : ∀ host, host ∈ ids ↔ (hosts host).isSome) :
    Expands pairsDir (ids.map pairedPath) := by
  refine .found (by simpa using hne) (hnodup.map fun _ _ => pairedPath_inj) fun name => ?_
  constructor
  · intro hname
    obtain ⟨host, hhost, rfl⟩ := List.mem_map.mp hname
    rw [h.file, Option.isSome_map]
    exact ⟨(hids host).mp hhost, isPairFile_pairedPath host⟩
  · rintro ⟨hname, -⟩
    obtain ⟨host, rfl⟩ := h.only name hname
    rw [h.file, Option.isSome_map] at hname
    exact List.mem_map_of_mem ((hids host).mpr hname)

/-- What the pattern expands to is read as the records of the hosts, each once. -/
theorem exists_ids (echo : Echo) (hlegacy : Represents legacy old) (h : Represents pairsDir hosts)
    {names : List Text} (hnames : Expands (ensureState legacy pairsDir) names) :
    ∃ ids : List DeviceId, ids.Nodup ∧
      (∀ host, host ∈ ids ↔ (ensureHosts old hosts host).isSome) ∧
      paired echo legacy pairsDir names = paired echo legacy pairsDir (ids.map pairedPath) := by
  have hensured := hlegacy.ensure h
  cases hnames with
  | found hne hnodup hnames =>
      have hall : ∀ name ∈ names, ∃ host, pairedPath host = name := fun name hname =>
        (hensured.only name ((hnames name).mp hname).1).imp fun _ => Eq.symm
      obtain ⟨ids, rfl⟩ : ∃ ids : List DeviceId, ids.map pairedPath = names := by
        choose! hostFor hpath using hall
        refine ⟨names.map hostFor, ?_⟩
        rw [List.map_map]
        exact (List.map_congr_left hpath).trans (List.map_id _)
      refine ⟨ids, List.Nodup.of_map pairedPath hnodup, fun host => ?_, rfl⟩
      have hmem : host ∈ ids ↔ pairedPath host ∈ ids.map pairedPath :=
        ⟨List.mem_map_of_mem, fun h => by
          obtain ⟨other, hother, heq⟩ := List.mem_map.mp h
          exact pairedPath_inj heq ▸ hother⟩
      rw [hmem, hnames, hensured.file, Option.isSome_map]
      simp [isPairFile_pairedPath]
  | pattern hnone =>
      -- The pattern itself names no file, and `paired` goes on to the next name.
      have hpattern : ensureState legacy pairsDir "*.pair".toList = none := hnone _ (by decide)
      refine ⟨[], List.nodup_nil, fun host => ?_, ?_⟩
      · have hfile := hensured.file host
        rw [hnone _ (isPairFile_pairedPath host)] at hfile
        simp [Option.map_eq_none_iff.mp hfile.symm]
      · rw [paired, List.flatMap_singleton, hpattern]
        rfl

/-- The command behind a row takes the pairing of its host away, and nothing else. -/
theorem removes (hlegacy : Represents legacy old) {host : DeviceId}
    (hpaired : (ensureHosts old (hostsOf old changes) host).isSome) :
    (unpair legacy (pairsDirOf legacy (changes ++ [.ensured])) (DeviceId.toHex host)).1 = 0 ∧
      ∀ other, pairedHostSecret (some (pairsDirOf legacy
          (changes ++ [.ensured] ++ [.unpaired (DeviceId.toHex host)]))) other =
        if other = host then .ok none
        else pairedHostSecret (some (pairsDirOf legacy (changes ++ [.ensured]))) other := by
  have hensured : hostsOf old (changes ++ [.ensured]) = ensureHosts old (hostsOf old changes) :=
    hostsOf_append old changes .ensured
  -- To copy the old records once more changes nothing.
  have hagain : ensureHosts old (hostsOf old (changes ++ [.ensured])) =
      hostsOf old (changes ++ [.ensured]) := by
    funext other
    rw [hensured, ensureHosts, ensureHosts, Option.or_assoc, Option.or_self]
  constructor
  · rcases hlegacy.unpair (represents hlegacy (changes ++ [.ensured])) (DeviceId.toHex host) with
      ⟨found, -, hok⟩ | ⟨hnone, -⟩
    · rw [hok]
    · have hhost := hnone host rfl
      rw [hagain, hensured] at hhost
      rw [hhost] at hpaired
      cases hpaired
  · intro other
    rw [(represents hlegacy _).secret, (represents hlegacy _).secret, hostsOf_append]
    simp only [Change.applyHosts, hagain]
    by_cases hsame : other = host
    · rw [if_pos (congrArg _ hsame), if_pos hsame]
      rfl
    · rw [if_neg fun heq => hsame (DeviceId.toHex_inj heq), if_neg hsame]

theorem splitWords_removeArgs (host : DeviceId) (name : Text) :
    splitWords charKind (removeArgs (rowOf host name)) =
      some ["unpair".toList, DeviceId.toHex host] := by
  have hdigits : ∀ c ∈ DeviceId.toHex host, charKind c = .plain := by
    intro c hc
    obtain ⟨n, hn, rfl⟩ := mem_toHex hc
    exact (digitChar_spec n hn).1
  obtain ⟨n, rest, -, heq⟩ := exists_toHex host
  have hreads : ShellWords.Reads charKind (DeviceId.toHex host) (DeviceId.toHex host) := by
    rw [heq] at hdigits ⊢
    exact ShellWords.reads_plain_cons hdigits
  have hunpair : ShellWords.Reads charKind "unpair".toList "unpair".toList :=
    ShellQuoting.reads_of_all_plain (by rfl)
  have hblank : charKind ' ' = .blank := by decide
  have hword : "unpair ".toList = "unpair".toList ++ [' '] := by rfl
  have hargs : removeArgs (rowOf host name) = "unpair".toList ++ [' '] ++ DeviceId.toHex host :=
    congrArg (fun text => text ++ DeviceId.toHex host) hword
  have hwords := ShellWords.splitWords_intercalate hblank (.cons hunpair (.cons hreads .nil))
  rw [List.intercalate_cons_cons, List.intercalate_singleton] at hwords
  exact (congrArg _ hargs).trans hwords

/-- Whatever the hosts call themselves, as long as `echo` and the variables of the shell have
nothing to say about it: the rows of the page are the hosts that are paired, each once with its
name, of which only the last may lose white space at its end; and the shell reads the command
behind a row as the removal of its host, which removes that pairing and no other. -/
theorem page_exact (echo : Echo) (hlegacy : Represents legacy old) {names : List Text}
    (hnames : Expands (ensureState legacy (pairsDirOf legacy changes)) names)
    (hold : ∀ host name secret, old host = some (name, secret) → Plain name)
    (hplain : ∀ store, .stored store ∈ changes → Plain store.hostName) :
    ∃ ids : List DeviceId, ids.Nodup ∧
      (∀ host, host ∈ ids ↔ (hostsOf old (changes ++ [.ensured]) host).isSome) ∧
      refreshPaired (paired echo legacy (pairsDirOf legacy changes) names) =
        (ids.dropLast.map fun host =>
          rowOf host (nameOf (hostsOf old (changes ++ [.ensured])) host)) ++
        (ids.getLast?.toList.map fun host =>
          rowOf host (jsTrimEnd (nameOf (hostsOf old (changes ++ [.ensured])) host))) ∧
      ∀ row ∈ refreshPaired (paired echo legacy (pairsDirOf legacy changes) names),
        ∃ host ∈ ids, row.id = DeviceId.toHex host ∧
          splitWords charKind (removeArgs row) = some ["unpair".toList, row.id] ∧
          (unpair legacy (pairsDirOf legacy (changes ++ [.ensured])) row.id).1 = 0 ∧
          ∀ other, pairedHostSecret (some (pairsDirOf legacy
              (changes ++ [.ensured] ++ [.unpaired row.id]))) other =
            if other = host then .ok none
            else pairedHostSecret (some (pairsDirOf legacy (changes ++ [.ensured]))) other := by
  have hrepresents := represents hlegacy changes
  have hensured := hostsOf_append old changes .ensured
  rw [Change.applyHosts] at hensured
  obtain ⟨ids, hids, hpaired, hread⟩ := exists_ids echo hlegacy hrepresents hnames
  have hentries : ∀ host name secret,
      ensureHosts old (hostsOf old changes) host = some (name, secret) → Plain name := by
    intro host name secret hentry
    rcases exists_stored ((congrFun hensured host).trans hentry) with hentry | ⟨store, hmem, hname⟩
    · exact hold host name secret hentry
    · obtain rfl : store.hostName = name := hname
      exact hplain store (by simpa using hmem)
  rw [hensured]
  have hrows : refreshPaired (paired echo legacy (pairsDirOf legacy changes) names) =
      (ids.dropLast.map fun host =>
        rowOf host (nameOf (ensureHosts old (hostsOf old changes)) host)) ++
      (ids.getLast?.toList.map fun host =>
        rowOf host (jsTrimEnd (nameOf (ensureHosts old (hostsOf old changes)) host))) := by
    rw [hread, paired_eq hlegacy hrepresents (fun host hhost => (hpaired host).mp hhost) hentries]
    exact refreshPaired_ids ids
  refine ⟨ids, hids, hpaired, hrows, fun row hrow => ?_⟩
  obtain ⟨host, name, hhost, rfl⟩ : ∃ host name, host ∈ ids ∧ row = rowOf host name := by
    rw [hrows, List.mem_append, List.mem_map, List.mem_map] at hrow
    rcases hrow with ⟨host, hhost, rfl⟩ | ⟨host, hhost, rfl⟩
    · exact ⟨host, _, (List.dropLast_sublist ids).mem hhost, rfl⟩
    · exact ⟨host, _, List.mem_of_getLast? (Option.mem_toList.mp hhost), rfl⟩
  obtain ⟨hremoved, hsecrets⟩ := removes hlegacy ((hpaired host).mp hhost)
  exact ⟨host, hhost, rfl, splitWords_removeArgs host name, hremoved, hsecrets⟩

/-- The host has been removed, and is listed. -/
theorem page_exact_desk :
    refreshPaired (paired ⟨fun text => text ++ ['\n'], fun _ _ _ => rfl⟩ legacyDir
      (pairsDirOf legacyDir [deskRemoved]) [pairedPath desk.hostId]) =
        [rowOf desk.hostId "a|b $(reboot)".toList] := by
  have hhosts (host : DeviceId) : hostsOf legacyHosts ([deskRemoved] ++ [.ensured]) host =
      if host = desk.hostId then some (desk.hostName, desk.secret) else none := by
    have hcopied : hostsOf legacyHosts [deskRemoved] host = none ∨
        hostsOf legacyHosts [deskRemoved] host = legacyHosts host :=
      (ite_eq_or_eq _ _ _).imp_right fun h => h.trans Option.none_or
    rw [hostsOf_append, Change.applyHosts, ensureHosts, ← legacyHosts_eq]
    rcases hcopied with hcopied | hcopied
    · rw [hcopied, Option.none_or]
    · rw [hcopied, Option.or_self]
  have hids (host : DeviceId) : host ∈ [desk.hostId] ↔
      (hostsOf legacyHosts ([deskRemoved] ++ [.ensured]) host).isSome := by
    rw [hhosts, List.mem_singleton]
    split <;> simp_all
  obtain ⟨ids, hnodup, hpaired, hrows, -⟩ := page_exact
    ⟨fun text => text ++ ['\n'], fun _ _ _ => rfl⟩ represents_legacyDir
    (expands_ids (represents_legacyDir.ensure (represents represents_legacyDir [deskRemoved]))
      (by simp) (List.nodup_singleton _) hids)
    (fun host name secret hentry => by
      rw [legacyHosts_eq] at hentry
      split at hentry
      · cases hentry
        exact ⟨by decide, by decide⟩
      · cases hentry)
    (fun store hmem => by cases List.mem_singleton.mp hmem)
  have hperm : List.Perm ids [desk.hostId] :=
    (List.perm_ext_iff_of_nodup hnodup (List.nodup_singleton _)).mpr fun host =>
      (hpaired host).trans (hids host).symm
  obtain rfl := List.perm_singleton.mp hperm
  have hname : nameOf (hostsOf legacyHosts ([deskRemoved] ++ [.ensured])) desk.hostId =
      "a|b $(reboot)".toList := by
    rw [nameOf, hhosts, if_pos rfl]
    decide
  refine hrows.trans ?_
  rw [List.dropLast_singleton, List.getLast?_singleton, Option.toList_some, List.map_nil,
    List.map_singleton, hname]
  exact congrArg (fun name => [rowOf desk.hostId name]) (by decide)

end Page

end SideWire.PairedPage
