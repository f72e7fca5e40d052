import Mathlib.Data.List.DropRight
import SideWire.HexTexts
import SideWire.PairingListener
import SideWire.PairingRecords
import SideWire.Security
import SideWire.ShellQuoting

/-!
The configuration of the device: what `write_config` of the module's shell script writes, and
what `resolve_config` makes of it.
-/

namespace SideWire.DaemonConfig

open SideWire.PairingStore
open SideWire.PairingListener (parseU64)
open SideWire.PairingRecords (linesFrom_append)
open SideWire.HexTexts (IsHex parseBytes_spec)
open SideWire.Security (SecurityMode)
open SideWire.ShellQuoting (Echo Plain)

inductive Mode
  | inbound
  | outbound
  deriving DecidableEq

/-- The options of the command line; `config` is what reading the file gives that one of them
names. -/
structure Cli where
  mode : Mode
  listen : Text
  server : Text
  name : Text
  deviceId : Option Text
  insecure : Bool
  config : Option (Except String Text)

structure ResolvedConfig where
  mode : Mode
  endpoint : Text
  name : Text
  deviceId : DeviceId
  security : SecurityMode
  pairingFile : Option Text
  pairsDir : Option Text
  pairingPort : UInt16
  clipboardHelper : Option Text
  deriving DecidableEq

def pairingPortDefault : UInt16 := 58323
def portDefault : UInt16 := 58321

/-- The keys that `resolve_config` knows. -/
inductive Key
  | mode
  | host
  | port
  | name
  | deviceId
  | security
  | pairingFile
  | pairsDir
  | pairingPort
  | clipboardHelper
  deriving DecidableEq

namespace Key

def text : Key → Text
  | .mode => "mode".toList
  | .host => "host".toList
  | .port => "port".toList
  | .name => "name".toList
  | .deviceId => "device_id".toList
  | .security => "security".toList
  | .pairingFile => "pairing_file".toList
  | .pairsDir => "pairs_dir".toList
  | .pairingPort => "pairing_port".toList
  | .clipboardHelper => "clipboard_helper".toList

def all : List Key :=
  [.mode, .host, .port, .name, .deviceId, .security, .pairingFile, .pairsDir, .pairingPort,
    .clipboardHelper]

def ofText (text : Text) : Option Key := all.find? fun key => decide (key.text = text)

/-- The arms of the keys that an empty value does not match. -/
def skipsEmpty : Key → Bool
  | .deviceId | .pairingFile | .pairsDir | .clipboardHelper => true
  | _ => false

theorem ofText_text (key : Key) : ofText key.text = some key := by
  cases key <;> decide

/-- A key is a text without spaces and without an equals sign. -/
theorem text_spec (key : Key) :
    key.text ≠ [] ∧ (∀ c ∈ key.text, isWhitespace c = false) ∧ '=' ∉ key.text ∧
      '\n' ∉ key.text ∧ key.text.head? ≠ some '#' := by
  have hspaces : (key.text.all fun c => !isWhitespace c) = true := by
    cases key <;> decide
  have hchars : key.text ≠ [] ∧ '=' ∉ key.text ∧ '\n' ∉ key.text ∧
      key.text.head? ≠ some '#' := by
    cases key <;> decide
  obtain ⟨hne, hequals, hfeed, hhash⟩ := hchars
  exact ⟨hne, by simpa using hspaces, hequals, hfeed, hhash⟩

end Key

/-- `str::trim_start` and `str::trim_end`. -/
def trimStart (text : Text) : Text := text.dropWhile isWhitespace
def trimEnd (text : Text) : Text := (text.reverse.dropWhile isWhitespace).reverse

/-- `str::trim_matches` with a character. -/
def trimMatches (c : Char) (text : Text) : Text :=
  ((text.dropWhile (· == c)).reverse.dropWhile (· == c)).reverse

/-- `str::split_once`. -/
def splitOnce (c : Char) (text : Text) : Option (Text × Text) :=
  if c ∈ text then
    some (text.takeWhile (· != c), (text.dropWhile (· != c)).tail)
  else none

/-- A value without the space and the quotes around it. -/
def clean (value : Text) : Text := trimMatches '"' (trim value)

/-- The key and the value of a line that has them. -/
def keyValue (raw : Text) : Option (Text × Text) :=
  let line := trim raw
  if line = [] ∨ line.head? = some '#' then none
  else (splitOnce '=' line).map fun (key, value) => (trim key, clean value)

/-- The key and the value of a line that `resolve_config` takes up. -/
def entry (raw : Text) : Option (Key × Text) := do
  let (key, value) ← keyValue raw
  let key ← Key.ofText key
  if key.skipsEmpty && value.isEmpty then none else some (key, value)

theorem isSome_parse (value : Text) : (HexTexts.DeviceId.parse value).isSome = true := by
  obtain ⟨result, hresult, -⟩ := @parseBytes_spec 16
    "device id must contain 32 hexadecimal digits" (fun _ => "decode device id")
    (value.filter (· ≠ '-'))
  rw [HexTexts.DeviceId.parse, hresult]
  rfl

/-- `DeviceId::parse`, which does not panic. -/
def parseId (value : Text) : Except String DeviceId :=
  (HexTexts.DeviceId.parse value).get (isSome_parse value)

/-- `str::parse::<u16>`. -/
def parseU16 (value : Text) : Option UInt16 :=
  (parseU64 value).bind fun n => if n < 2 ^ 16 then some (UInt16.ofNat n) else none

def parseMode (value : Text) : Mode :=
  if eqIgnoreAsciiCase value "inbound".toList then .inbound else .outbound

def parseSecurity (value : Text) : SecurityMode :=
  if eqIgnoreAsciiCase value "insecure".toList then .insecure else .secure

/-- The variables of the loop. -/
structure Vars where
  mode : Mode
  host : Text
  port : UInt16
  name : Text
  deviceId : Option DeviceId
  security : SecurityMode
  pairingFile : Option Text
  pairsDir : Option Text
  pairingPort : UInt16
  clipboardHelper : Option Text
  deriving DecidableEq

/-- The arms of the match. -/
def Vars.set (vars : Vars) : Key × Text → Except String Vars
  | (.mode, value) => .ok { vars with mode := parseMode value }
  | (.host, value) => .ok { vars with host := value }
  | (.port, value) => .ok { vars with port := (parseU16 value).getD portDefault }
  | (.name, value) => .ok { vars with name := value }
  | (.deviceId, value) => do
      let id ← parseId value
      .ok { vars with deviceId := some id }
  | (.security, value) => .ok { vars with security := parseSecurity value }
  | (.pairingFile, value) => .ok { vars with pairingFile := some value }
  | (.pairsDir, value) => .ok { vars with pairsDir := some value }
  | (.pairingPort, value) =>
      .ok { vars with pairingPort := (parseU16 value).getD pairingPortDefault }
  | (.clipboardHelper, value) => .ok { vars with clipboardHelper := some value }

def Vars.readLine (vars : Vars) (raw : Text) : Except String Vars :=
  match entry raw with
  | none => .ok vars
  | some found => vars.set found

def Vars.readText (vars : Vars) (text : Text) : Except String Vars :=
  (lines text).foldlM Vars.readLine vars

def Vars.initial (cli : Cli) (deviceId : Option DeviceId) : Vars where
  mode := cli.mode
  host := []
  port := portDefault
  name := cli.name
  deviceId := deviceId
  security := if cli.insecure then .insecure else .secure
  pairingFile := none
  pairsDir := none
  pairingPort := pairingPortDefault
  clipboardHelper := none

def withPort (host : Text) (port : UInt16) : Text := host ++ ':' :: (Nat.repr port.toNat).toList

/-- The endpoint where there is a file. -/
def Vars.endpoint (vars : Vars) : Text :=
  match vars.mode with
  | .inbound => withPort "0.0.0.0".toList vars.port
  | .outbound =>
      withPort (if vars.host = [] then "127.0.0.1".toList else vars.host) vars.port

def Vars.resolved (vars : Vars) (endpoint : Text) (random : DeviceId) : ResolvedConfig where
  mode := vars.mode
  endpoint := endpoint
  name := vars.name
  deviceId := vars.deviceId.getD random
  security := vars.security
  pairingFile := vars.pairingFile
  pairsDir := vars.pairsDir
  pairingPort := vars.pairingPort
  clipboardHelper := vars.clipboardHelper

/-- `random` is the identity that is drawn where none is configured. -/
def resolveConfig (cli : Cli) (random : DeviceId) : Except String ResolvedConfig := do
  let deviceId ← cli.deviceId.mapM parseId
  match cli.config with
  | none =>
      let vars := Vars.initial cli deviceId
      let endpoint := match vars.mode with
        | .inbound => cli.listen
        | .outbound => cli.server
      .ok (vars.resolved endpoint random)
  | some file =>
      let text ← file
      let vars ← (Vars.initial cli deviceId).readText text
      .ok (vars.resolved vars.endpoint random)

/-! The last line of a key decides. -/

/-- What is taken up of the lines of a text, in their order. -/
def entries (text : Text) : List (Key × Text) := (lines text).filterMap entry

def lastValue (found : List (Key × Text)) (key : Key) : Option Text :=
  (found.filter fun pair => decide (pair.1 = key)).getLast?.map Prod.snd

/-- The variables once each key has its last value. -/
def Vars.settled (vars : Vars) (found : List (Key × Text)) : Vars where
  mode := ((lastValue found .mode).map parseMode).getD vars.mode
  host := (lastValue found .host).getD vars.host
  port := ((lastValue found .port).map fun value =>
    (parseU16 value).getD portDefault).getD vars.port
  name := (lastValue found .name).getD vars.name
  deviceId := ((lastValue found .deviceId).bind fun value => (parseId value).toOption).or
    vars.deviceId
  security := ((lastValue found .security).map parseSecurity).getD vars.security
  pairingFile := (lastValue found .pairingFile).or vars.pairingFile
  pairsDir := (lastValue found .pairsDir).or vars.pairsDir
  pairingPort := ((lastValue found .pairingPort).map fun value =>
    (parseU16 value).getD pairingPortDefault).getD vars.pairingPort
  clipboardHelper := (lastValue found .clipboardHelper).or vars.clipboardHelper

/-- All identities that a text gives are 32 hexadecimal digits, besides dashes. -/
def ValidIds (found : List (Key × Text)) : Prop :=
  ∀ value, (.deviceId, value) ∈ found → IsHex 32 (value.filter (· ≠ '-'))

section Reading

theorem parseId_of_isHex {value : Text} (h : IsHex 32 (value.filter (· ≠ '-'))) :
    ∃ id, parseId value = .ok id := by
  obtain ⟨result, hresult, hok, -⟩ := @parseBytes_spec 16
    "device id must contain 32 hexadecimal digits" (fun _ => "decode device id")
    (value.filter (· ≠ '-'))
  obtain ⟨id, rfl⟩ := hok.mpr h
  refine ⟨id, ?_⟩
  simp only [parseId, HexTexts.DeviceId.parse, hresult, Option.get_some]

theorem parseId_of_not_isHex {value : Text} (h : ¬ IsHex 32 (value.filter (· ≠ '-'))) :
    parseId value = .error "device id must contain 32 hexadecimal digits" := by
  have hparse := @HexTexts.parseBytes_of_not_isHex 16 _ (fun _ => "decode device id")
    "device id must contain 32 hexadecimal digits" h
  simp only [parseId, HexTexts.DeviceId.parse, hparse, Option.get_some]

theorem lastValue_append (found : List (Key × Text)) (key other : Key) (value : Text) :
    lastValue (found ++ [(key, value)]) other =
      if key = other then some value else lastValue found other := by
  unfold lastValue
  rw [List.filter_append]
  by_cases hkey : key = other <;> simp [hkey]

theorem set_settled (vars : Vars) (found : List (Key × Text)) {key : Key} {value : Text}
    (hvalid : key = .deviceId → IsHex 32 (value.filter (· ≠ '-'))) :
    (vars.settled found).set (key, value) =
      .ok (vars.settled (found ++ [(key, value)])) := by
  cases key with
  | deviceId =>
      obtain ⟨id, hid⟩ := parseId_of_isHex (hvalid rfl)
      simp [Vars.set, Vars.settled, lastValue_append, hid, Except.toOption, Bind.bind,
        Except.bind]
  | _ => simp [Vars.set, Vars.settled, lastValue_append]

theorem validIds_append {found : List (Key × Text)} {key : Key} {value : Text} :
    ValidIds (found ++ [(key, value)]) ↔
      ValidIds found ∧ (key = .deviceId → IsHex 32 (value.filter (· ≠ '-'))) := by
  simp only [ValidIds, List.mem_append, List.mem_singleton, Prod.mk.injEq, or_imp, forall_and]
  refine and_congr_right fun _ => ⟨fun h hkey => h value ⟨hkey.symm, rfl⟩, ?_⟩
  rintro h _ ⟨hkey, rfl⟩
  exact h hkey.symm

theorem readLine_eq (vars : Vars) (found : List (Key × Text)) (raw : Text) :
    (ValidIds (found ++ (entry raw).toList) → (vars.settled found).readLine raw =
      .ok (vars.settled (found ++ (entry raw).toList))) ∧
    (ValidIds found → ¬ ValidIds (found ++ (entry raw).toList) →
      (vars.settled found).readLine raw =
        .error "device id must contain 32 hexadecimal digits") := by
  unfold Vars.readLine
  cases hentry : entry raw with
  | none => simp
  | some pair =>
      obtain ⟨key, value⟩ := pair
      simp only [Option.toList_some, validIds_append]
      refine ⟨fun h => set_settled vars found h.2, fun hfound hnot => ?_⟩
      obtain ⟨rfl, hhex⟩ : key = .deviceId ∧ ¬ IsHex 32 (value.filter (· ≠ '-')) := by
        simpa [hfound] using hnot
      rw [Vars.set, parseId_of_not_isHex hhex]
      rfl

theorem foldlM_readLine (vars : Vars) (read : List Text) :
    (ValidIds (read.filterMap entry) →
      read.foldlM Vars.readLine vars = .ok (vars.settled (read.filterMap entry))) ∧
    (¬ ValidIds (read.filterMap entry) →
      read.foldlM Vars.readLine vars =
        .error "device id must contain 32 hexadecimal digits") := by
  induction read using List.reverseRecOn with
  | nil => exact ⟨fun _ => rfl, fun h => absurd (fun _ hmem => nomatch hmem) h⟩
  | append_singleton read raw ih =>
      obtain ⟨hok, herror⟩ := ih
      obtain ⟨hline, hbad⟩ := readLine_eq vars (read.filterMap entry) raw
      have happend : (read ++ [raw]).filterMap entry =
          read.filterMap entry ++ (entry raw).toList := by
        rw [List.filterMap_append]
        cases hentry : entry raw <;> simp [hentry]
      rw [List.foldlM_append, happend]
      by_cases hvalid : ValidIds (read.filterMap entry)
      · rw [hok hvalid]
        refine ⟨fun hall => ?_, fun hnot => ?_⟩
        · exact (bind_pure _).trans (hline hall)
        · exact (bind_pure _).trans (hbad hvalid hnot)
      · rw [herror hvalid]
        refine ⟨fun hall => ?_, fun _ => rfl⟩
        exact absurd (fun value hmem => hall value (List.mem_append_left _ hmem)) hvalid

end Reading

/-! What `sidewirectl` writes. -/

/-- The settings of the module, empty where one is not set, the model of the device, and the
identity that is made where none is set. -/
structure ModuleSettings where
  mode : Text
  host : Text
  port : Text
  name : Text
  security : Text
  pairingPort : Text
  deviceId : Text
  model : Text
  freshId : Text

def orDefault (value fallback : Text) : Text := if value = [] then fallback else value

def stateDir : Text := "/data/adb/sidewire".toList
def pairingFilePath : Text := stateDir ++ "/pairing".toList
def pairsDirPath : Text := stateDir ++ "/paired_hosts".toList
def clipboardHelperPath : Text := "/data/local/tmp/sidewire/sidewire-clipboard.jar".toList

/-- The lines that `write_config` writes. -/
def ModuleSettings.written (settings : ModuleSettings) : List (Key × Text) :=
  [(.mode, orDefault settings.mode "outbound".toList),
    (.host, orDefault settings.host "127.0.0.1".toList),
    (.port, orDefault settings.port "58321".toList),
    (.name, orDefault settings.name settings.model),
    (.deviceId, orDefault settings.deviceId settings.freshId),
    (.security, orDefault settings.security "secure".toList),
    (.pairingPort, orDefault settings.pairingPort "58323".toList),
    (.pairingFile, pairingFilePath),
    (.pairsDir, pairsDirPath),
    (.clipboardHelper, clipboardHelperPath)]

def configLine (pair : Key × Text) : Text := pair.1.text ++ '=' :: pair.2

def writeConfig (echo : Echo) (settings : ModuleSettings) : Text :=
  settings.written.flatMap fun pair => echo.print (configLine pair)

section Lines

theorem linesFrom_feed (line before after : Text) :
    linesFrom line (before ++ '\n' :: after) =
      linesFrom line (before ++ ['\n']) ++ lines after := by
  induction before generalizing line with
  | nil => simp [linesFrom, lines]
  | cons c before ih =>
      rw [List.cons_append, List.cons_append, linesFrom, linesFrom]
      split_ifs
      · rw [ih, List.cons_append]
      · exact ih _

theorem entries_feed (before after : Text) :
    entries (before ++ '\n' :: after) = entries (before ++ ['\n']) ++ entries after := by
  rw [entries, lines, linesFrom_feed, List.filterMap_append]
  rfl

/-- The line of a key, if `echo` has nothing to expand in its value. -/
def echoed (pair : Key × Text) : Text := configLine pair ++ ['\n']

theorem entries_echoed_append (before : Text) (pair : Key × Text) (rest : Text) :
    entries (before ++ echoed pair ++ rest) = entries (before ++ echoed pair) ++ entries rest := by
  have hfeed := entries_feed (before ++ configLine pair) rest
  simpa only [echoed, List.append_assoc, List.singleton_append] using hfeed

theorem entries_flatMap_echoed (pairs : List (Key × Text)) :
    entries (pairs.flatMap echoed) = pairs.flatMap fun pair => entries (echoed pair) := by
  induction pairs with
  | nil => rfl
  | cons pair pairs ih =>
      have happend := entries_echoed_append [] pair (pairs.flatMap echoed)
      rw [List.flatMap_cons, List.flatMap_cons, ← ih]
      exact happend

theorem trim_eq (text : Text) : trim text = trimEnd (trimStart text) := rfl

theorem trimEnd_cons (c : Char) (text : Text) :
    trimEnd (c :: text) =
      if trimEnd text = [] ∧ isWhitespace c = true then [] else c :: trimEnd text := by
  unfold trimEnd
  rw [List.reverse_cons, List.dropWhile_append]
  cases hdrop : text.reverse.dropWhile isWhitespace with
  | nil => cases hc : isWhitespace c <;> simp [hc]
  | cons d rest => simp

theorem trimStart_trimEnd (text : Text) : trimStart (trimEnd text) = trimEnd (trimStart text) := by
  induction text with
  | nil => rfl
  | cons c text ih =>
      rw [trimEnd_cons]
      cases hc : isWhitespace c with
      | false =>
          have hstart : ∀ text, trimStart (c :: text) = c :: text := by
            intro text
            simp [trimStart, hc]
          simp [hstart, trimEnd_cons, hc]
      | true =>
          have hstart : ∀ text, trimStart (c :: text) = trimStart text := by
            intro text
            simp [trimStart, hc]
          rw [hstart]
          split_ifs with hnil
          · rw [← ih, hnil.1]
          · rw [hstart, ih]

theorem trimEnd_trimEnd (text : Text) : trimEnd (trimEnd text) = trimEnd text := by
  simp [trimEnd, List.dropWhile_idempotent]

theorem trim_trimEnd (text : Text) : trim (trimEnd text) = trim text := by
  rw [trim_eq, trimStart_trimEnd, trimEnd_trimEnd, trim_eq]

theorem trimEnd_append {before : Text} {c : Char} (hc : isWhitespace c = false) (after : Text) :
    trimEnd (before ++ c :: after) = before ++ c :: trimEnd after := by
  induction before with
  | nil => rw [List.nil_append, trimEnd_cons, hc]; simp
  | cons d before ih => rw [List.cons_append, trimEnd_cons, ih]; simp

theorem trimEnd_stripCarriageReturn (text : Text) :
    trimEnd (stripCarriageReturn text) = trimEnd text := by
  unfold stripCarriageReturn
  split_ifs with hlast
  · obtain ⟨front, rfl⟩ := List.getLast?_eq_some_iff.mp hlast
    have hspace : isWhitespace '\r' = true := by decide
    simp [trimEnd, hspace]
  · rfl

theorem keyValue_line (key : Key) (value : Text) :
    keyValue (stripCarriageReturn (key.text ++ '=' :: value)) = some (key.text, clean value) := by
  obtain ⟨hne, hspaces, hequals, -, hhash⟩ := key.text_spec
  have hline : trim (stripCarriageReturn (key.text ++ '=' :: value)) =
      key.text ++ '=' :: trimEnd value := by
    have hequalsSpace : isWhitespace '=' = false := by decide
    rw [trim_eq, ← trimStart_trimEnd, trimEnd_stripCarriageReturn, trimEnd_append hequalsSpace]
    obtain ⟨c, rest, htext⟩ := List.exists_cons_of_ne_nil hne
    have hc : isWhitespace c = false := hspaces c (by rw [htext]; exact List.mem_cons_self)
    rw [htext, trimStart, List.cons_append, List.dropWhile_cons_of_neg (by simp [hc])]
  have hhead : (key.text ++ '=' :: trimEnd value).head? ≠ some '#' := by
    rwa [List.head?_append_of_ne_nil _ hne]
  have hsplit : splitOnce '=' (key.text ++ '=' :: trimEnd value) =
      some (key.text, trimEnd value) := by
    have hall : ∀ c ∈ key.text, (c != '=') = true :=
      fun c hc => bne_iff_ne.mpr fun heq => hequals (heq ▸ hc)
    rw [splitOnce, if_pos (by simp), List.takeWhile_append_of_pos hall,
      List.dropWhile_append_of_pos hall]
    simp
  rw [keyValue, hline]
  simp only [hhead, or_false, List.append_eq_nil_iff, hne, false_and, if_false, hsplit,
    Option.map_some, trim_eq_self hspaces, clean, trim_trimEnd]

/-- A value without line feeds is read back, if it is not skipped. -/
theorem entries_echoed {key : Key} {value : Text} (hfeed : '\n' ∉ value)
    (htaken : key.skipsEmpty = true → clean value ≠ []) :
    entries (echoed (key, value)) = [(key, clean value)] := by
  have hline : '\n' ∉ key.text ++ '=' :: value := by
    simp [key.text_spec.2.2.2.1, hfeed]
  have htake : (key.skipsEmpty && (clean value).isEmpty) = false := by
    cases hskip : key.skipsEmpty with
    | false => rfl
    | true => simpa using htaken hskip
  have hentry : entry (stripCarriageReturn (key.text ++ '=' :: value)) =
      some (key, clean value) := by
    simp only [entry, keyValue_line, Key.ofText_text, Option.bind_eq_bind, Option.bind_some,
      htake, Bool.false_eq_true, if_false]
  rw [entries, echoed, configLine, lines, linesFrom_append hline, List.nil_append,
    List.filterMap_cons_some hentry]
  rfl

theorem print_configLine (echo : Echo) (key : Key) {value : Text} (h : Plain value) :
    echo.print (configLine (key, value)) = echoed (key, value) := by
  obtain ⟨hne, hbackslash, hnul, hdash⟩ : key.text ≠ [] ∧ '\\' ∉ key.text ∧
      '\x00' ∉ key.text ∧ key.text.head? ≠ some '-' := by
    cases key <;> decide
  have hequals : '\\' ≠ '=' ∧ '\x00' ≠ '=' := by decide
  refine echo.print_plain _ ⟨?_, ?_⟩ ?_
  · simp [configLine, hbackslash, hequals, h.1]
  · simp [configLine, hnul, hequals, h.2]
  · rwa [configLine, List.head?_append_of_ne_nil _ hne]

end Lines

section Results

theorem readText_eq (vars : Vars) (text : Text) :
    (ValidIds (entries text) → vars.readText text = .ok (vars.settled (entries text))) ∧
    (¬ ValidIds (entries text) → vars.readText text =
      .error "device id must contain 32 hexadecimal digits") :=
  foldlM_readLine vars (lines text)

theorem resolveConfig_eq_ok {cli : Cli} {text : Text} {random : DeviceId}
    {resolved : ResolvedConfig} :
    resolveConfig { cli with config := some (.ok text) } random = .ok resolved ↔
      ∃ id, cli.deviceId.mapM parseId = .ok id ∧ ValidIds (entries text) ∧
        resolved = ((Vars.initial cli id).settled (entries text)).resolved
          ((Vars.initial cli id).settled (entries text)).endpoint random := by
  cases hid : cli.deviceId.mapM parseId with
  | error error => simp [resolveConfig, hid, Bind.bind, Except.bind]
  | ok id =>
      obtain ⟨hok, herror⟩ := readText_eq (Vars.initial cli id) text
      have hinitial : Vars.initial { cli with config := some (.ok text) } id =
          Vars.initial cli id := rfl
      by_cases hvalid : ValidIds (entries text)
      · simp [resolveConfig, hid, Bind.bind, Except.bind, hinitial, hok hvalid, hvalid,
          eq_comm]
      · simp [resolveConfig, hid, Bind.bind, Except.bind, hinitial, herror hvalid, hvalid]

theorem parseSecurity_eq_insecure {value : Text} :
    parseSecurity value = .insecure ↔ eqIgnoreAsciiCase value "insecure".toList = true := by
  unfold parseSecurity
  split_ifs with h
  · exact iff_of_true rfl h
  · exact iff_of_false nofun h

theorem plain_constants :
    Plain pairingFilePath ∧ Plain pairsDirPath ∧ Plain clipboardHelperPath := by
  decide

theorem entries_constants (before : Text) (pair : Key × Text) :
    entries (before ++ echoed pair ++ echoed (.pairingFile, pairingFilePath) ++
        echoed (.pairsDir, pairsDirPath) ++ echoed (.clipboardHelper, clipboardHelperPath)) =
      entries (before ++ echoed pair) ++ [(.pairingFile, pairingFilePath)] ++
        [(.pairsDir, pairsDirPath)] ++ [(.clipboardHelper, clipboardHelperPath)] := by
  have hfile : entries (echoed (.pairingFile, pairingFilePath)) =
      [(.pairingFile, pairingFilePath)] := entries_echoed (by decide) fun _ => by decide
  have hdir : entries (echoed (.pairsDir, pairsDirPath)) = [(.pairsDir, pairsDirPath)] :=
    entries_echoed (by decide) fun _ => by decide
  have hhelper : entries (echoed (.clipboardHelper, clipboardHelperPath)) =
      [(.clipboardHelper, clipboardHelperPath)] := entries_echoed (by decide) fun _ => by decide
  rw [entries_echoed_append, entries_echoed_append, entries_echoed_append, hfile, hdir, hhelper]

variable {echo : Echo} {settings : ModuleSettings}

/-- What `write_config` prints before the line of the pairing port. -/
def printedBefore (echo : Echo) (settings : ModuleSettings) (count : Nat) : Text :=
  (settings.written.take count).flatMap fun pair => echo.print (configLine pair)

/-- A plain pairing port keeps the last three lines apart from all that precedes them. -/
theorem entries_writeConfig (hport : Plain (orDefault settings.pairingPort "58323".toList)) :
    entries (writeConfig echo settings) =
      entries (printedBefore echo settings 6 ++
          echoed (.pairingPort, orDefault settings.pairingPort "58323".toList)) ++
        [(.pairingFile, pairingFilePath)] ++ [(.pairsDir, pairsDirPath)] ++
        [(.clipboardHelper, clipboardHelperPath)] := by
  obtain ⟨hfile, hdir, hhelper⟩ := plain_constants
  have hprint := print_configLine echo .pairingPort hport
  rw [← entries_constants, ← hprint]
  simp [writeConfig, printedBefore, ModuleSettings.written, print_configLine, hfile, hdir, hhelper]

/-- A plain identity keeps the line of the security apart. -/
theorem entries_security (hid : Plain (orDefault settings.deviceId settings.freshId))
    (hsecurity : Plain (orDefault settings.security "secure".toList)) (port : Text) :
    entries (printedBefore echo settings 6 ++ echoed (.pairingPort, port)) =
      entries (printedBefore echo settings 4 ++
          echoed (.deviceId, orDefault settings.deviceId settings.freshId)) ++
        (entries (echoed (.security, orDefault settings.security "secure".toList)) ++
          entries (echoed (.pairingPort, port))) := by
  have hpair := entries_flatMap_echoed
    [(.security, orDefault settings.security "secure".toList), (.pairingPort, port)]
  simp only [List.flatMap_cons, List.flatMap_nil, List.append_nil] at hpair
  have hprint := print_configLine echo .security hsecurity
  rw [← hpair, ← entries_echoed_append, ← hprint]
  simp [printedBefore, ModuleSettings.written, print_configLine, hid]

theorem plain_orDefault {value fallback : Text} (hvalue : Plain value)
    (hfallback : Plain fallback) : Plain (orDefault value fallback) := by
  unfold orDefault
  split_ifs
  · exact hfallback
  · exact hvalue

theorem not_mem_orDefault {value fallback : Text} (hvalue : '\n' ∉ value)
    (hfallback : '\n' ∉ fallback) : '\n' ∉ orDefault value fallback := by
  unfold orDefault
  split_ifs
  · exact hfallback
  · exact hvalue

/-- A text that is printed as it is and on one line. -/
def OneLine (text : Text) : Prop := '\n' ∉ text ∧ Plain text

instance (text : Text) : Decidable (OneLine text) := inferInstanceAs (Decidable (_ ∧ _))

theorem oneLine_orDefault {value fallback : Text} (hvalue : OneLine value)
    (hfallback : OneLine fallback) : OneLine (orDefault value fallback) :=
  ⟨not_mem_orDefault hvalue.1 hfallback.1, plain_orDefault hvalue.2 hfallback.2⟩

/-- All that the script writes is printed as it is. -/
structure ModuleSettings.OneLines (settings : ModuleSettings) : Prop where
  mode : OneLine settings.mode
  host : OneLine settings.host
  port : OneLine settings.port
  name : OneLine (orDefault settings.name settings.model)
  security : OneLine settings.security
  pairingPort : OneLine settings.pairingPort
  deviceId : OneLine (orDefault settings.deviceId settings.freshId)

theorem isHex_of_parseId {value : Text} {id : DeviceId} (h : parseId value = .ok id) :
    IsHex 32 (value.filter (· ≠ '-')) := by
  by_contra hhex
  exact nomatch h.symm.trans (parseId_of_not_isHex hhex)

theorem ne_nil_of_parseId {value : Text} {id : DeviceId} (h : parseId value = .ok id) :
    value ≠ [] := by
  rintro rfl
  exact nomatch (isHex_of_parseId h).1

theorem writeConfig_eq (h : settings.OneLines) :
    writeConfig echo settings = settings.written.flatMap echoed := by
  obtain ⟨hfile, hdir, hhelper⟩ := plain_constants
  have hplain : ∀ pair ∈ settings.written, Plain pair.2 := by
    simp only [ModuleSettings.written, List.forall_mem_cons]
    exact ⟨(oneLine_orDefault h.mode (by decide)).2, (oneLine_orDefault h.host (by decide)).2,
      (oneLine_orDefault h.port (by decide)).2, h.name.2, h.deviceId.2,
      (oneLine_orDefault h.security (by decide)).2,
      (oneLine_orDefault h.pairingPort (by decide)).2, hfile, hdir, hhelper, List.forall_mem_nil _⟩
  exact List.flatMap_congr fun pair hpair => print_configLine echo pair.1 (hplain pair hpair)

theorem entries_of_oneLines (h : settings.OneLines)
    (hid : clean (orDefault settings.deviceId settings.freshId) ≠ []) :
    entries (writeConfig echo settings) =
      settings.written.map fun pair => (pair.1, clean pair.2) := by
  have hwritten : ∀ pair ∈ settings.written,
      '\n' ∉ pair.2 ∧ (pair.1.skipsEmpty = true → clean pair.2 ≠ []) := by
    simp only [ModuleSettings.written, List.forall_mem_cons]
    exact ⟨⟨not_mem_orDefault h.mode.1 (by decide), nofun⟩,
      ⟨not_mem_orDefault h.host.1 (by decide), nofun⟩,
      ⟨not_mem_orDefault h.port.1 (by decide), nofun⟩, ⟨h.name.1, nofun⟩,
      ⟨h.deviceId.1, fun _ => hid⟩, ⟨not_mem_orDefault h.security.1 (by decide), nofun⟩,
      ⟨not_mem_orDefault h.pairingPort.1 (by decide), nofun⟩,
      ⟨by decide, fun _ => by decide⟩, ⟨by decide, fun _ => by decide⟩,
      ⟨by decide, fun _ => by decide⟩, List.forall_mem_nil _⟩
  rw [writeConfig_eq h, entries_flatMap_echoed]
  refine (List.flatMap_congr fun pair hpair => ?_).trans (List.flatMap_pure_eq_map _ _)
  obtain ⟨hfeed, htaken⟩ := hwritten pair hpair
  exact entries_echoed hfeed htaken

theorem lastValue_written (settings : ModuleSettings) :
    ∀ pair ∈ settings.written,
      lastValue (settings.written.map fun pair => (pair.1, clean pair.2)) pair.1 =
        some (clean pair.2) := by
  simp only [ModuleSettings.written, List.forall_mem_cons, List.map_cons, List.map_nil]
  exact ⟨rfl, rfl, rfl, rfl, rfl, rfl, rfl, rfl, rfl, rfl, List.forall_mem_nil _⟩

/-- What a written configuration is meant to be resolved to. -/
def ModuleSettings.meant (settings : ModuleSettings) (id : DeviceId) : ResolvedConfig :=
  let mode := parseMode (clean (orDefault settings.mode "outbound".toList))
  let host := clean (orDefault settings.host "127.0.0.1".toList)
  let port := (parseU16 (clean (orDefault settings.port "58321".toList))).getD portDefault
  { mode := mode
    endpoint := match mode with
      | .inbound => withPort "0.0.0.0".toList port
      | .outbound => withPort (if host = [] then "127.0.0.1".toList else host) port
    name := clean (orDefault settings.name settings.model)
    deviceId := id
    security := parseSecurity (clean (orDefault settings.security "secure".toList))
    pairingFile := some pairingFilePath
    pairsDir := some pairsDirPath
    pairingPort := (parseU16 (clean (orDefault settings.pairingPort "58323".toList))).getD
      pairingPortDefault
    clipboardHelper := some clipboardHelperPath }

end Results

section Forged

/-- A device with a name that asks for no security, and nothing else set. -/
def forgedName : ModuleSettings where
  mode := []
  host := []
  port := []
  name := "x\nsecurity=insecure".toList
  security := []
  pairingPort := []
  deviceId := []
  model := []
  freshId := List.replicate 32 'a'

def defaultCli : Cli where
  mode := .inbound
  listen := "0.0.0.0:58321".toList
  server := "127.0.0.1:58321".toList
  name := "sidewire-device".toList
  deviceId := none
  insecure := false
  config := none

theorem isHex_forgedName : IsHex 32 ((List.replicate 32 'a').filter (· ≠ '-')) :=
  ⟨by decide, List.all_eq_true.mp (by decide)⟩

/-- An `echo` that expands nothing. -/
def plainEcho : Echo where
  print text := text ++ ['\n']
  print_plain _ _ _ := rfl

theorem entries_forgedName :
    entries (writeConfig plainEcho forgedName) =
      [(.mode, "outbound".toList), (.host, "127.0.0.1".toList), (.port, "58321".toList),
        (.name, "x".toList), (.security, "insecure".toList),
        (.deviceId, List.replicate 32 'a'), (.security, "secure".toList),
        (.pairingPort, "58323".toList), (.pairingFile, pairingFilePath),
        (.pairsDir, pairsDirPath), (.clipboardHelper, clipboardHelperPath)] := by
  decide

theorem exists_forgedName (random : DeviceId) :
    ∃ resolved, resolveConfig { defaultCli with
      config := some (.ok (writeConfig plainEcho forgedName)) } random = .ok resolved := by
  refine ⟨_, resolveConfig_eq_ok.mpr ⟨none, rfl, ?_, rfl⟩⟩
  intro value hmem
  rw [entries_forgedName] at hmem
  obtain rfl : value = List.replicate 32 'a' := by simpa using hmem
  exact isHex_forgedName

end Forged

/-- The last line of each key decides, and nothing else of the file: it is resolved exactly if
every identity in it, and that of the command line, has 32 hexadecimal digits, and the device is
insecure only if the last line about its security says so, or if there is none and the command
line does. -/
theorem resolveConfig_lastLines (cli : Cli) (text : Text) (random : DeviceId)
    (resolved : ResolvedConfig) :
    (resolveConfig { cli with config := some (.ok text) } random = .ok resolved ↔
      ∃ id, cli.deviceId.mapM parseId = .ok id ∧ ValidIds (entries text) ∧
        resolved = ((Vars.initial cli id).settled (entries text)).resolved
          ((Vars.initial cli id).settled (entries text)).endpoint random) ∧
    (resolveConfig { cli with config := some (.ok text) } random = .ok resolved →
      (resolved.security = .insecure ↔
        (∃ value, lastValue (entries text) .security = some value ∧
          eqIgnoreAsciiCase value "insecure".toList = true) ∨
        lastValue (entries text) .security = none ∧ cli.insecure = true)) := by
  refine ⟨resolveConfig_eq_ok, ?_⟩
  rw [resolveConfig_eq_ok]
  rintro ⟨id, -, -, rfl⟩
  simp only [Vars.resolved, Vars.settled, Vars.initial]
  cases hlast : lastValue (entries text) .security with
  | none => cases cli.insecure <;> simp
  | some value => simpa using parseSecurity_eq_insecure

theorem resolveConfig_lastLines_forgedName :
    ∃ resolved, resolveConfig { defaultCli with
        config := some (.ok (writeConfig plainEcho forgedName)) } (.replicate 16 0) = .ok resolved ∧
      resolved.security ≠ .insecure := by
  obtain ⟨resolved, hok⟩ := exists_forgedName (.replicate 16 0)
  have hlast : lastValue (entries (writeConfig plainEcho forgedName)) .security =
      some "secure".toList := by
    rw [entries_forgedName]
    rfl
  refine ⟨resolved, hok, fun hinsecure => ?_⟩
  have hsecurity := ((resolveConfig_lastLines _ _ _ _).2 hok).mp hinsecure
  rw [hlast] at hsecurity
  rcases hsecurity with ⟨_, ⟨⟩, hinsecure⟩ | ⟨hnone, -⟩
  · exact absurd hinsecure (by decide)
  · exact nomatch hnone

/-- Whatever the settings are, line feeds and backslashes included, and whatever `echo` makes of
them: as long as the pairing port is plain, no setting moves the PIN file, the directory of the
paired hosts or the clipboard helper; and with a plain identity no setting but those of the
security and of the pairing port makes the device insecure. -/
theorem writeConfig_guarded (echo : Echo) (cli : Cli) (settings : ModuleSettings)
    (random : DeviceId) (resolved : ResolvedConfig) (hport : Plain settings.pairingPort)
    (h : resolveConfig { cli with config := some (.ok (writeConfig echo settings)) } random =
      .ok resolved) :
    resolved.pairingFile = some pairingFilePath ∧ resolved.pairsDir = some pairsDirPath ∧
      resolved.clipboardHelper = some clipboardHelperPath ∧
      (Plain (orDefault settings.deviceId settings.freshId) → OneLine settings.security →
        '\n' ∉ settings.pairingPort →
        (resolved.security = .insecure ↔
          eqIgnoreAsciiCase (clean (orDefault settings.security "secure".toList))
            "insecure".toList = true)) := by
  obtain ⟨id, -, -, rfl⟩ := resolveConfig_eq_ok.mp h
  have hentries := @entries_writeConfig echo settings
    (plain_orDefault hport (by decide))
  have hconstants : ∀ pair ∈ [(Key.pairingFile, pairingFilePath), (.pairsDir, pairsDirPath),
      (.clipboardHelper, clipboardHelperPath)],
      lastValue (entries (writeConfig echo settings)) pair.1 = some pair.2 := by
    rw [hentries]
    simp only [List.forall_mem_cons, lastValue_append, reduceCtorEq, if_false, if_true]
    exact ⟨trivial, trivial, trivial, List.forall_mem_nil _⟩
  simp only [List.forall_mem_cons] at hconstants
  obtain ⟨hfile, hdir, hhelper, -⟩ := hconstants
  refine ⟨?_, ?_, ?_, ?_⟩
  · simp only [Vars.resolved, Vars.settled, hfile, Option.some_or]
  · simp only [Vars.resolved, Vars.settled, hdir, Option.some_or]
  · simp only [Vars.resolved, Vars.settled, hhelper, Option.some_or]
  · intro hid hsecurity hfeed
    have hsecure : OneLine (orDefault settings.security "secure".toList) :=
      oneLine_orDefault hsecurity (by decide)
    have hsecurityLine := @entries_echoed .security _ hsecure.1 nofun
    have hportLine := @entries_echoed .pairingPort _
      (not_mem_orDefault hfeed (by decide : '\n' ∉ "58323".toList)) nofun
    have hlast : lastValue (entries (writeConfig echo settings)) .security =
        some (clean (orDefault settings.security "secure".toList)) := by
      rw [hentries, entries_security hid hsecure.2, hsecurityLine, hportLine]
      simp only [← List.append_assoc, lastValue_append, reduceCtorEq, if_false, if_true]
    simpa [Vars.resolved, Vars.settled, hlast] using parseSecurity_eq_insecure

theorem writeConfig_guarded_forgedName :
    ∃ resolved, resolveConfig { defaultCli with
        config := some (.ok (writeConfig plainEcho forgedName)) } (.replicate 16 0) =
          .ok resolved ∧
      resolved.pairsDir = some pairsDirPath ∧ resolved.security ≠ .insecure := by
  obtain ⟨resolved, hok⟩ := exists_forgedName (.replicate 16 0)
  obtain ⟨-, hdir, -, hsecurity⟩ :=
    writeConfig_guarded plainEcho defaultCli forgedName _ resolved (by decide) hok
  refine ⟨resolved, hok, hdir, fun hinsecure => ?_⟩
  exact absurd ((hsecurity (by decide) (by decide) (by decide)).mp hinsecure) (by decide)

/-- A configuration that has been written with settings of one line and a valid identity is
resolved to these settings, without the space and the quotes around them. -/
theorem resolveConfig_writeConfig (echo : Echo) (cli : Cli) (settings : ModuleSettings)
    (random id : DeviceId) (hcli : ∃ cliId, cli.deviceId.mapM parseId = .ok cliId)
    (hlines : settings.OneLines)
    (hid : parseId (clean (orDefault settings.deviceId settings.freshId)) = .ok id) :
    resolveConfig { cli with config := some (.ok (writeConfig echo settings)) } random =
      .ok (settings.meant id) := by
  obtain ⟨cliId, hcli⟩ := hcli
  have hentries := @entries_of_oneLines echo _ hlines (ne_nil_of_parseId hid)
  refine resolveConfig_eq_ok.mpr ⟨cliId, hcli, ?_, ?_⟩
  · intro value hmem
    rw [hentries] at hmem
    obtain rfl : value = clean (orDefault settings.deviceId settings.freshId) := by
      simpa [ModuleSettings.written] using hmem
    exact isHex_of_parseId hid
  · have hlast := lastValue_written settings
    simp only [ModuleSettings.written, List.forall_mem_cons] at hlast
    obtain ⟨hmode, hhost, hport, hname, hdeviceId, hsecurity, hpairing, hfile, hdir, hhelper, -⟩ :=
      hlast
    have hconstants : clean pairingFilePath = pairingFilePath ∧
        clean pairsDirPath = pairsDirPath ∧ clean clipboardHelperPath = clipboardHelperPath := by
      decide
    rw [hentries, ModuleSettings.written]
    simp only [Vars.settled, hmode, hhost, hport, hname, hdeviceId, hsecurity, hpairing, hfile,
      hdir, hhelper, hconstants, hid, Option.map_some, Option.getD_some, Option.bind_some,
      Option.some_or, Except.toOption]
    rfl

theorem resolveConfig_writeConfig_default :
    ∃ id resolved, resolveConfig { defaultCli with config := some (.ok (writeConfig plainEcho
        { forgedName with name := "My phone ".toList })) } (.replicate 16 0) = .ok resolved ∧
      resolved.deviceId = id ∧ resolved.name = "My phone".toList ∧ resolved.mode = .outbound ∧
      resolved.endpoint = "127.0.0.1:58321".toList := by
  obtain ⟨id, hid⟩ := parseId_of_isHex isHex_forgedName
  have hlines : ({ forgedName with name := "My phone ".toList } : ModuleSettings).OneLines :=
    ⟨by decide, by decide, by decide, by decide, by decide, by decide, by decide⟩
  have hresolved := resolveConfig_writeConfig plainEcho defaultCli _ (.replicate 16 0) id
    ⟨none, rfl⟩ hlines hid
  exact ⟨id, _, hresolved, rfl, rfl, rfl, rfl⟩

end SideWire.DaemonConfig
