import SideWire.Base.ByteString
import SideWire.Base.ShellWords
import SideWire.PairingStore

/-!
The scripts that programs and settings are quoted into: by the device for the shell identity,
and by the WebUI for the control script.
-/

namespace SideWire.ShellQuoting

open SideWire.ByteString
open SideWire.PairingStore
open SideWire.ShellWords

/-- What a character code means to a POSIX shell. -/
def kindOfCode (code : Nat) : Kind :=
  if code = 0x27 then .singleQuote
  else if code = 0x22 then .doubleQuote
  else if code = 0x5C then .backslash
  else if code = 0x20 ∨ code = 0x09 then .blank
  else if code = 0x0A then .newline
  else if code = 0x24 ∨ code = 0x60 then .expansion
  -- the characters | & ; < > ( ) * ? [ ] # ~ = % ! { } ^
  else if code ∈ [0x7C, 0x26, 0x3B, 0x3C, 0x3E, 0x28, 0x29, 0x2A, 0x3F, 0x5B, 0x5D, 0x23, 0x7E,
      0x3D, 0x25, 0x21, 0x7B, 0x7D, 0x5E] then .special
  else .plain

def charKind (c : Char) : Kind := kindOfCode c.toNat

/-- A text that `echo` has nothing to expand in, and that a variable of the shell can hold. -/
def Plain (text : Text) : Prop := '\\' ∉ text ∧ '\x00' ∉ text

instance (text : Text) : Decidable (Plain text) := inferInstanceAs (Decidable (_ ∧ _))

/-- The `echo` of a shell with one argument; shells differ in what they do with backslashes. -/
structure Echo where
  print : Text → Text
  print_plain : ∀ text, Plain text → text.head? ≠ some '-' → print text = text ++ ['\n']

/-- A string of JavaScript, in UTF-16 code units. -/
abbrev JsString := List UInt16

def unitKind (unit : UInt16) : Kind := kindOfCode unit.toNat

/-- A value in quotes, with `escape` in place of each quote of its own. -/
def quoteWith {α : Type*} [DecidableEq α] (quote : α) (escape value : List α) : List α :=
  quote :: value.flatMap (fun ch => if ch = quote then escape else [ch]) ++ [quote]

def shellQuote (value : Text) : Text := quoteWith '\'' "'\\''".toList value

inductive ExecIdentity
  | root
  | shell
  deriving DecidableEq

def shellGroups : List Nat :=
  [1004, 1007, 1011, 1015, 1028, 1078, 1079, 2000, 3001, 3002, 3003, 3006, 3009, 3011, 3012]

structure Command where
  program : Text
  args : List Text
  deriving DecidableEq

def shellScript (program : Text) (args : List Text) : Text :=
  "exec ".toList ++ shellQuote program ++ args.flatMap fun arg => ' ' :: shellQuote arg

def shellOptions : List Text :=
  ["-p", "-Z", "u:r:shell:s0", "-g", "2000"].map String.toList ++
    (shellGroups.flatMap fun group => ["-G".toList, decimalText group]) ++
    ["--ksu-no-new-privs", "2000"].map String.toList

def commandForIdentity (android : Bool) (program : Text) (args : List Text)
    (identity : ExecIdentity) : Command :=
  if android && decide (identity = .shell) then
    { program := "/system/bin/su".toList,
      args := shellOptions ++ ["-c".toList, shellScript program args] }
  else { program := program, args := args }

namespace WebUi

/-- A text of the script in code units. -/
def units (text : String) : JsString := text.toList.map fun c => UInt16.ofNat c.toNat

def shellQuote (value : JsString) : JsString :=
  quoteWith 0x27 (units "'\"'\"'") value

def settingKeys : List String := ["host", "port", "name", "mode", "security", "autostart"]

/-- The arguments of `set-many` that `saveConfig` puts together. -/
def saveConfigArgs (value : String → JsString) : JsString :=
  [0x20].intercalate (settingKeys.flatMap fun key => [units key, shellQuote (value key)])

end WebUi

section Quoting

variable {α : Type*} [DecidableEq α] {kind : α → Kind} {quote : α} {escape : List α}

/-- A quoted value reads as itself where the quote is the only one of its kind and its escape
reads as the quote. -/
theorem reads_quoteWith (hquote : ∀ c, kind c = .singleQuote ↔ c = quote)
    (hescape : ReadsQuoted kind escape [quote]) (value : List α) :
    Reads kind (quoteWith quote escape value) value := by
  have hinside : ReadsQuoted kind
      (value.flatMap fun ch => if ch = quote then escape else [ch]) value := by
    induction value with
    | nil => exact readsQuoted_nil
    | cons ch value ih =>
        rw [List.flatMap_cons]
        have hfirst : ReadsQuoted kind (if ch = quote then escape else [ch]) [ch] := by
          split_ifs with hch
          · rwa [hch]
          · exact readsQuoted_char fun h => hch ((hquote ch).mp h)
        exact hfirst.append ih
  exact hinside.reads ((hquote quote).mpr rfl) ((hquote quote).mpr rfl)

theorem kindOfCode_eq_singleQuote_iff {code : Nat} :
    kindOfCode code = .singleQuote ↔ code = 0x27 := by
  unfold kindOfCode
  split_ifs <;> simp_all

theorem charKind_eq_singleQuote_iff (c : Char) : charKind c = .singleQuote ↔ c = '\'' := by
  rw [charKind, kindOfCode_eq_singleQuote_iff, ← Char.toNat_inj]
  rfl

theorem unitKind_eq_singleQuote_iff (unit : UInt16) :
    unitKind unit = .singleQuote ↔ unit = 0x27 := by
  rw [unitKind, kindOfCode_eq_singleQuote_iff, ← UInt16.toNat_inj]
  rfl

theorem reads_shellQuote (value : Text) : Reads charKind (shellQuote value) value := by
  have hescape : ReadsQuoted charKind ('\'' :: ['\\', '\''] ++ ['\'']) ['\''] :=
    (reads_escaped (by decide) (by decide)).readsQuoted (by decide) (by decide)
  exact reads_quoteWith charKind_eq_singleQuote_iff hescape value

theorem WebUi.reads_shellQuote (value : JsString) :
    Reads unitKind (WebUi.shellQuote value) value := by
  have hescape : ReadsQuoted unitKind (0x27 :: (0x22 :: [0x27] ++ [0x22]) ++ [0x27]) [0x27] :=
    (reads_double_quoted (by decide) (by decide)
      (List.forall_mem_singleton.mpr (by decide))).readsQuoted (by decide) (by decide)
  exact reads_quoteWith unitKind_eq_singleQuote_iff hescape value

end Quoting

theorem shellScript_eq (program : Text) (args : List Text) :
    shellScript program args =
      [' '].intercalate ("exec".toList :: (program :: args).map shellQuote) := by
  have hjoin : ∀ (first : Text) (rest : List Text),
      [' '].intercalate (first :: rest) = first ++ rest.flatMap fun text => ' ' :: text := by
    intro first rest
    induction rest generalizing first with
    | nil => simp
    | cons text rest ih =>
        rw [List.intercalate_cons_cons, ih, List.flatMap_cons]
        simp
  rw [hjoin, List.map_cons, List.flatMap_cons, List.flatMap_map, shellScript]
  simp

theorem reads_of_all_plain {α : Type*} {kind : α → Kind} {c : α} {text : List α}
    (h : (c :: text).all (fun d => decide (kind d = .plain)) = true) :
    Reads kind (c :: text) (c :: text) :=
  reads_plain_cons (by simpa using h)

theorem splitWords_shellScript (program : Text) (args : List Text) :
    splitWords charKind (shellScript program args) = some ("exec".toList :: program :: args) := by
  rw [shellScript_eq]
  apply splitWords_intercalate (by decide)
  refine .cons (reads_of_all_plain (by rfl)) ?_
  rw [List.forall₂_map_left_iff]
  exact List.forall₂_same.mpr fun value _ => reads_shellQuote value

/-- The control script gets each key with its value. -/
theorem WebUi.splitWords_saveConfigArgs (value : String → JsString) :
    splitWords unitKind (WebUi.saveConfigArgs value) =
      some (WebUi.settingKeys.flatMap fun key => [WebUi.units key, value key]) := by
  apply splitWords_intercalate (by decide)
  have hkeys : ∀ key ∈ WebUi.settingKeys, Reads unitKind (WebUi.units key) (WebUi.units key) := by
    simp only [WebUi.settingKeys, List.forall_mem_cons]
    refine ⟨?_, ?_, ?_, ?_, ?_, ?_, nofun⟩ <;>
      exact reads_of_all_plain (by rfl)
  generalize WebUi.settingKeys = keys at hkeys ⊢
  induction keys with
  | nil => exact .nil
  | cons key keys ih =>
      obtain ⟨hkey, hrest⟩ := List.forall_mem_cons.mp hkeys
      exact .cons hkey (.cons (WebUi.reads_shellQuote (value key)) (ih hrest))

/-- The shell that runs the script of a command gets the program and its arguments as they
are, and a shell gets a value that the WebUI quotes as it is. -/
theorem splitWords_commandForIdentity (program : Text) (args : List Text) :
    (∃ script, commandForIdentity true program args .shell =
        { program := "/system/bin/su".toList,
          args := shellOptions ++ ["-c".toList, script] } ∧
        splitWords charKind script = some ("exec".toList :: program :: args)) ∧
      ∀ value : JsString, splitWords unitKind (WebUi.shellQuote value) = some [value] := by
  refine ⟨⟨_, rfl, splitWords_shellScript program args⟩, ?_⟩
  intro value
  have hblank : unitKind 0x20 = .blank := by decide
  have hwords := splitWords_intercalate hblank
    (List.Forall₂.cons (WebUi.reads_shellQuote value) .nil)
  rwa [List.intercalate_singleton] at hwords

/-- A word left bare would not stay whole. -/
example : splitWords charKind "exec a b".toList =
      some ["exec".toList, "a".toList, "b".toList] ∧
    splitWords charKind "exec $HOME".toList = none := by
  decide

end SideWire.ShellQuoting
