import Mathlib.Data.Char
import Mathlib.Data.List.Lex
import Mathlib.Data.List.Nodup
import SideWire.Base.CommonStart
import SideWire.Base.SizedText
import SideWire.PairingStore

/-!
Completion of the word before the cursor of a PTY's command line: `complete_pty_path`.
-/

namespace SideWire.PtyCompletion

open SideWire.ByteString
open SideWire.CommonStart
open SideWire.PairingStore
open SideWire.SizedText

/-- The bytes of a path, which need not be UTF-8. -/
abbrev Path := Bytes

structure CachedDirEntry where
  name : Text
  isDir : Bool
  deriving DecidableEq

/-- What the request finds: the texts in the environment of the shell (none where an entry is
not UTF-8), its working directory, and what each call of `completion_entries` returns, from
the cache or from the disk. -/
structure World where
  environ : Option (List (Option Text))
  cwd : Except String Path
  completionEntries : Nat → Path → Except String (List CachedDirEntry)

structure PtyCompleteRequest where
  line : Text
  cursor : UInt32

structure PtyCompleteResult where
  line : Text
  cursor : UInt32
  candidates : List Text
  candidateCount : UInt32
  deriving DecidableEq

def maxCompletionCandidates : Nat := 256

/-! Where the word starts. Slices are `none` where the program would panic. -/

structure Scan where
  start : Nat
  quote : Option Char

def tokenStep (scan : Scan) : Nat × Char → Scan
  | (index, character) =>
      match scan.quote with
      | some active => if character = active then { scan with quote := none } else scan
      | none =>
          if character = '\'' ∨ character = '"' then
            { start := if scan.start = index then index + character.utf8Size else scan.start
              quote := some character }
          else if isWhitespace character || "|;&()<>".toList.contains character then
            { scan with start := index + character.utf8Size }
          else scan

def segmentStep (scan : Scan) : Nat × Char → Scan
  | (index, character) =>
      match scan.quote with
      | some active => if character = active then { scan with quote := none } else scan
      | none =>
          if character = '\'' ∨ character = '"' then { scan with quote := some character }
          else if "|;&()".toList.contains character then
            { scan with start := index + character.utf8Size }
          else scan

def scanStart (step : Scan → Nat × Char → Scan) (line : Text) (cursor : Nat) : Option Nat := do
  let (front, _) ← splitAt Char.utf8Size line cursor
  pure ((indices Char.utf8Size front).foldl step ⟨0, none⟩).start

def completionTokenStart : Text → Nat → Option Nat := scanStart tokenStep

def commandSegmentStart : Text → Nat → Option Nat := scanStart segmentStep

/-- `str::split_whitespace` and its first word. -/
def firstWord (text : Text) : Option Text :=
  (text.splitOnP isWhitespace).find? fun word => decide (word ≠ [])

def commandContext (line : Text) (tokenStart : Nat) : Option (Bool × Option Text) := do
  let segmentStart ← commandSegmentStart line tokenStart
  let segment ← slice Char.utf8Size line segmentStart tokenStart
  let before := trim segment
  if before = [] then pure (true, none) else pure (false, firstWord before)

/-! The candidates. -/

def processEnv (world : World) (key : Text) : Option Text := do
  let entries ← world.environ
  entries.findSome? fun entry => entry.bind (stripStart (key ++ ['=']))

def defaultPath : Text :=
  ("/product/bin:/apex/com.android.runtime/bin:/system_ext/bin:/system/bin:" ++
    "/system/xbin:/vendor/bin").toList

structure Seen where
  seen : List Text
  candidates : List Text

def seeEntry (typed : Text) (state : Seen) (entry : CachedDirEntry) : Seen :=
  if entry.isDir || !typed.isPrefixOf entry.name || state.seen.contains entry.name then state
  else
    { seen := entry.name :: state.seen
      candidates := state.candidates ++ [entry.name] }

def seeDirectory (world : World) (typed : Text) (state : Seen) : Text × Nat → Seen
  | (directory, call) =>
      match world.completionEntries call (intoBytes directory) with
      | .error _ => state
      | .ok entries => entries.foldl (seeEntry typed) state

def programDirectories (world : World) : List Text :=
  (((processEnv world "PATH".toList).getD defaultPath).splitOnP (· == ':')).filter
    fun path => decide (path ≠ [])

def programCandidates (world : World) (typed : Text) : List Text :=
  ((programDirectories world).zipIdx.foldl (seeDirectory world typed) ⟨[], []⟩).candidates

/-- `PathBuf::join` on Unix. -/
def join (base relative : Path) : Path :=
  if relative.head? = some 0x2F then relative
  else if base.getLast?.all (· == 0x2F) then base ++ relative
  else base ++ 0x2F :: relative

def searchDir (world : World) (cwd : Path) (directoryText : Text) : Path :=
  match stripStart "~/".toList directoryText with
  | some relative =>
      join (((processEnv world "HOME".toList).map intoBytes).getD cwd) (intoBytes relative)
  | none =>
      if directoryText.head? = some '/' then intoBytes directoryText
      else if directoryText = [] then cwd
      else join cwd (intoBytes directoryText)

def pathCandidates (directoryText needle : Text) (directoryOnly : Bool)
    (entries : List CachedDirEntry) : List Text :=
  (entries.filter fun entry =>
    !(!needle.isPrefixOf entry.name || (directoryOnly && !entry.isDir))).map fun entry =>
      if entry.isDir then directoryText ++ entry.name ++ ['/'] else directoryText ++ entry.name

/-! What is made of them. -/

def shrinkCommonPrefix (common value : Text) : Text :=
  if common.isPrefixOf value then common
  else if common = [] then common
  else shrinkCommonPrefix common.dropLast value
termination_by common.length
decreasing_by
  rw [List.length_dropLast]
  exact Nat.sub_lt (List.length_pos_iff.mpr (by assumption)) Nat.one_pos

/-- The loop over the further candidates, left once nothing is common. -/
def shrinkAll (common : Text) : List Text → Text
  | [] => common
  | candidate :: rest =>
      let common := shrinkCommonPrefix common candidate
      if common = [] then common else shrinkAll common rest

/-- `Vec::dedup`. -/
def dedup {α : Type*} [DecidableEq α] : List α → List α
  | [] => []
  | [value] => [value]
  | value :: next :: rest =>
      if value = next then dedup (next :: rest) else value :: dedup (next :: rest)

/-- The candidates after `sort_unstable` and `dedup`. -/
def distinct (candidates : List Text) : List Text :=
  dedup (candidates.mergeSort fun a b => decide (a ≤ b))

def replacementFor (typed : Text) : List Text → Text
  | [] => typed
  | first :: rest =>
      let common := shrinkAll first rest
      if rest = [] ∨ len Char.utf8Size typed < len Char.utf8Size common then common else typed

def finishCompletion (request : PtyCompleteRequest) (start cursor : Nat) (typed : Text)
    (candidates : List Text) : Option PtyCompleteResult := do
  let candidates := distinct candidates
  let candidateCount := UInt32.ofNat candidates.length
  let replacement := replacementFor typed candidates
  let line ← replaceRange Char.utf8Size request.line start cursor replacement
  pure
    { line
      cursor := UInt32.ofNat (start + len Char.utf8Size replacement)
      candidates := candidates.take maxCompletionCandidates
      candidateCount }

def clampedCursor (request : PtyCompleteRequest) : Nat :=
  floor Char.utf8Size request.line
    (min request.cursor.toNat (len Char.utf8Size request.line))

/-- `complete_pty_path`, with what is made of the candidates left open. -/
def completeWith {β : Type} (finish : Nat → Nat → Text → List Text → Option β) (world : World)
    (request : PtyCompleteRequest) : Option (Except String β) := do
  let cursor := clampedCursor request
  let start ← completionTokenStart request.line cursor
  let typed ← slice Char.utf8Size request.line start cursor
  let (commandPosition, command) ← commandContext request.line start
  if commandPosition && !typed.contains '/' then
    (finish start cursor typed (programCandidates world typed)).map .ok
  else if typed = ['~'] then
    (finish start cursor typed ["~/".toList]).map .ok
  else
    let split := ((rfind Char.utf8Size (· == '/') typed).map (· + 1)).getD 0
    let (directoryText, needle) ← splitAt Char.utf8Size typed split
    match world.cwd with
    | .error error => pure (.error error)
    | .ok cwd =>
        match world.completionEntries 0 (searchDir world cwd directoryText) with
        | .error error => pure (.error error)
        | .ok entries =>
            (finish start cursor typed
              (pathCandidates directoryText needle (command = some "cd".toList) entries)).map .ok

def completePtyPath (world : World) (request : PtyCompleteRequest) :
    Option (Except String PtyCompleteResult) :=
  completeWith (finishCompletion request) world request

/-- The candidates that a request gathers. -/
def gathered (world : World) (request : PtyCompleteRequest) : Option (Except String (List Text)) :=
  completeWith (fun _ _ _ candidates => some candidates) world request

section Starts

theorem tokenStep_start (scan : Scan) (index : Nat) (c : Char) :
    (tokenStep scan (index, c)).start = scan.start ∨
      (tokenStep scan (index, c)).start = index + c.utf8Size := by
  rw [tokenStep]
  split
  · split <;> exact .inl rfl
  · split
    · exact (ite_eq_or_eq (scan.start = index) _ _).symm
    · split
      · exact .inr rfl
      · exact .inl rfl

theorem segmentStep_start (scan : Scan) (index : Nat) (c : Char) :
    (segmentStep scan (index, c)).start = scan.start ∨
      (segmentStep scan (index, c)).start = index + c.utf8Size := by
  rw [segmentStep]
  split
  · split <;> exact .inl rfl
  · split
    · exact .inl rfl
    · split
      · exact .inr rfl
      · exact .inl rfl

/-- A scan that moves its start behind symbols it reads leaves it between two of them. -/
theorem scanStart_spec {step : Scan → Nat × Char → Scan}
    (hstep : ∀ scan index c, (step scan (index, c)).start = scan.start ∨
      (step scan (index, c)).start = index + c.utf8Size) (front back : Text) :
    ∃ kept word, front = kept ++ word ∧
      scanStart step (front ++ back) (len Char.utf8Size front) =
        some (len Char.utf8Size kept) := by
  have hkept : ∃ kept word, front = kept ++ word ∧
      len Char.utf8Size kept = ((indices Char.utf8Size front).foldl step ⟨0, none⟩).start := by
    refine foldl_indices_induct (motive := fun read (scan : Scan) => ∃ kept word,
      read = kept ++ word ∧ len Char.utf8Size kept = scan.start) ⟨[], [], rfl, rfl⟩ ?_ front
    rintro read scan c ⟨kept, word, rfl, hlen⟩
    rcases hstep scan (len Char.utf8Size (kept ++ word)) c with hsame | hmoved
    · exact ⟨kept, word ++ [c], List.append_assoc .., by rw [hlen, hsame]⟩
    · refine ⟨kept ++ word ++ [c], [], (List.append_nil _).symm, ?_⟩
      rw [hmoved, len_append, len_cons, len_nil, Nat.add_zero]
  obtain ⟨kept, word, hfront, hlen⟩ := hkept
  refine ⟨kept, word, hfront, ?_⟩
  rw [scanStart, splitAt_len Char.utf8Size_pos, hlen]
  rfl

example : completionTokenStart "echo ok && cd /sys/cl".toList 21 = some 14 := by decide

example : completionTokenStart "cat \"foo bar/ba".toList 15 = some 5 := by decide

theorem commandContext_isSome (front back : Text) :
    ∃ context, commandContext (front ++ back) (len Char.utf8Size front) = some context := by
  obtain ⟨kept, segment, rfl, hsegment⟩ := scanStart_spec segmentStep_start front back
  have hslice := slice_len Char.utf8Size_pos kept segment back
  rw [commandContext, commandSegmentStart, hsegment]
  simp only [Option.bind_eq_bind, Option.bind_some, hslice]
  split
  · exact ⟨_, rfl⟩
  · exact ⟨_, rfl⟩

theorem clampedCursor_spec (request : PtyCompleteRequest) :
    ∃ front back, request.line = front ++ back ∧
      len Char.utf8Size front = clampedCursor request ∧
      len Char.utf8Size front ≤ request.cursor.toNat ∧
      ∀ front' back' : Text, request.line = front' ++ back' →
        len Char.utf8Size front' ≤ request.cursor.toNat →
        len Char.utf8Size front' ≤ len Char.utf8Size front := by
  obtain ⟨hle, front, back, hline, hlen⟩ := floor_spec Char.utf8Size_pos request.line
    (min request.cursor.toNat (len Char.utf8Size request.line))
  refine ⟨front, back, hline, hlen, by omega, ?_⟩
  intro front' back' hline' hle'
  have htotal : len Char.utf8Size front' ≤ len Char.utf8Size request.line :=
    len_le_of_starts ⟨back', hline'.symm⟩
  rw [hlen, hline']
  exact le_floor Char.utf8Size_pos (by rw [← hline']; omega)

end Starts

section Candidates

/-- What the loops over a listing keep: the candidates are the names seen, and start with the
word. -/
structure SeenOk (typed : Text) (state : Seen) : Prop where
  seen : ∀ name, name ∈ state.seen ↔ name ∈ state.candidates
  starts : ∀ name ∈ state.candidates, typed <+: name

/-- The names a listing offers for a word. -/
def Offers (typed : Text) (entries : List CachedDirEntry) (name : Text) : Prop :=
  ∃ entry ∈ entries, entry.isDir = false ∧ entry.name = name ∧ typed <+: name

/-- A step that keeps what is seen in order and adds the names with `Adds`. -/
def Sees (typed : Text) (state state' : Seen) (Adds : Text → Prop) : Prop :=
  SeenOk typed state' ∧ ∀ name, name ∈ state'.candidates ↔ name ∈ state.candidates ∨ Adds name

theorem Sees.foldl {α : Type*} {typed : Text} {see : Seen → α → Seen} {Adds : α → Text → Prop}
    (hsee : ∀ state x, SeenOk typed state → Sees typed state (see state x) (Adds x))
    (xs : List α) {state : Seen} (h : SeenOk typed state) :
    Sees typed state (xs.foldl see state) fun name => ∃ x ∈ xs, Adds x name := by
  induction xs generalizing state with
  | nil => exact ⟨h, fun name => by simp⟩
  | cons x xs ih =>
      obtain ⟨hok, hmem⟩ := hsee state x h
      obtain ⟨hrest, hmem_rest⟩ := ih hok
      refine ⟨hrest, fun name => ?_⟩
      rw [List.foldl_cons, hmem_rest, hmem, or_assoc]
      simp only [List.mem_cons, exists_eq_or_imp]

theorem seeEntry_spec {typed : Text} {state : Seen} (h : SeenOk typed state)
    (entry : CachedDirEntry) :
    Sees typed state (seeEntry typed state entry) (Offers typed [entry]) := by
  rw [seeEntry]
  split
  · next hskip =>
      refine ⟨h, fun name => ⟨.inl, ?_⟩⟩
      rintro (hold | ⟨entry', hentry, hfile, rfl, hstart⟩)
      · exact hold
      · rw [List.mem_singleton.mp hentry] at hfile hstart ⊢
        simp only [hfile, List.isPrefixOf_iff_prefix.mpr hstart, Bool.not_true, Bool.or_self,
          Bool.false_or, List.contains_iff_mem] at hskip
        exact (h.seen entry.name).mp hskip
  · next htake =>
      simp only [Bool.or_eq_true, Bool.not_eq_true', not_or, Bool.not_eq_false,
        Bool.not_eq_true, List.isPrefixOf_iff_prefix] at htake
      obtain ⟨⟨hfile, hstart⟩, -⟩ := htake
      refine ⟨⟨?_, ?_⟩, ?_⟩
      · intro name
        simp [h.seen, or_comm]
      · intro name hname
        rcases List.mem_append.mp hname with hold | hnew
        · exact h.starts name hold
        · rwa [List.mem_singleton.mp hnew]
      · intro name
        rw [List.mem_append, List.mem_singleton]
        refine or_congr_right ⟨?_, ?_⟩
        · rintro rfl
          exact ⟨entry, List.mem_singleton_self entry, hfile, rfl, hstart⟩
        · rintro ⟨entry', hentry, -, rfl, -⟩
          rw [List.mem_singleton.mp hentry]

theorem seeDirectory_spec (world : World) {typed : Text} {state : Seen} (h : SeenOk typed state)
    (call : Text × Nat) :
    Sees typed state (seeDirectory world typed state call) fun name =>
      ∃ entries, world.completionEntries call.2 (intoBytes call.1) = .ok entries ∧
        Offers typed entries name := by
  rw [seeDirectory]
  split
  · next herror => exact ⟨h, fun name => by simp [herror]⟩
  · next entries hentries =>
      obtain ⟨hok, hmem⟩ := Sees.foldl (fun _ entry hstate => seeEntry_spec hstate entry) entries h
      refine ⟨hok, fun name => ?_⟩
      rw [hmem, hentries]
      simp [Offers]

theorem mem_programCandidates_iff {world : World} {typed name : Text} :
    name ∈ programCandidates world typed ↔
      ∃ call ∈ (programDirectories world).zipIdx, ∃ entries,
        world.completionEntries call.2 (intoBytes call.1) = .ok entries ∧
          Offers typed entries name := by
  have hstart : SeenOk typed ⟨[], []⟩ := ⟨fun _ => Iff.rfl, fun _ hname => (nomatch hname)⟩
  have hmem := (Sees.foldl (fun _ call hstate => seeDirectory_spec world hstate call)
    (programDirectories world).zipIdx hstart).2 name
  simpa [programCandidates] using hmem

theorem starts_of_mem_programCandidates {world : World} {typed name : Text}
    (h : name ∈ programCandidates world typed) : typed <+: name := by
  obtain ⟨-, -, -, -, -, -, -, -, hstart⟩ := mem_programCandidates_iff.mp h
  exact hstart

theorem starts_of_mem_pathCandidates {directoryText needle name : Text} {directoryOnly : Bool}
    {entries : List CachedDirEntry}
    (h : name ∈ pathCandidates directoryText needle directoryOnly entries) :
    directoryText ++ needle <+: name := by
  obtain ⟨entry, hentry, rfl⟩ := List.mem_map.mp h
  have hneedle : needle <+: entry.name := by
    have htest := (List.mem_filter.mp hentry).2
    simp only [Bool.not_or, Bool.not_not, Bool.and_eq_true,
      List.isPrefixOf_iff_prefix] at htest
    exact htest.1
  have hname : directoryText ++ needle <+: directoryText ++ entry.name :=
    (List.prefix_append_right_inj directoryText).mpr hneedle
  split
  · exact hname.trans (List.prefix_append _ _)
  · exact hname

end Candidates

section Replacement

theorem shrinkCommonPrefix_spec (common value : Text) :
    LongestCommon [common, value] (shrinkCommonPrefix common value) := by
  induction common using List.reverseRecOn with
  | nil =>
      rw [shrinkCommonPrefix, if_pos rfl]
      exact ⟨fun _ _ => List.nil_prefix, fun start hstart => hstart [] (by simp)⟩
  | append_singleton common c ih =>
      rw [shrinkCommonPrefix]
      split
      · next hstart =>
          refine ⟨?_, fun start h => h _ List.mem_cons_self⟩
          intro other hother
          rcases List.mem_pair.mp hother with rfl | rfl
          · exact List.prefix_rfl
          · exact List.isPrefixOf_iff_prefix.mp hstart
      · next hstart =>
          rw [if_neg (by simp), List.dropLast_concat]
          constructor
          · intro other hother
            rcases List.mem_pair.mp hother with rfl | rfl
            · exact (ih.starts common (by simp)).trans (List.prefix_append common [c])
            · exact ih.starts other (by simp)
          · intro start h
            have hvalue := h value (by simp)
            refine ih.longest start ?_
            intro other hother
            rcases List.mem_pair.mp hother with rfl | rfl
            · rcases List.prefix_concat_iff.mp (h _ List.mem_cons_self) with rfl | hless
              · exact absurd (List.isPrefixOf_iff_prefix.mpr hvalue) hstart
              · exact hless
            · exact hvalue

theorem shrinkAll_spec {read : List Text} {common : Text} (h : LongestCommon read common)
    (rest : List Text) : LongestCommon (read ++ rest) (shrinkAll common rest) := by
  induction rest generalizing read common with
  | nil => rwa [List.append_nil]
  | cons candidate rest ih =>
      have hless := h.snoc (shrinkCommonPrefix_spec common candidate)
      rw [shrinkAll, List.append_cons]
      split
      · next hnil =>
          rw [hnil] at hless ⊢
          exact hless.append_of_nil rest
      · exact ih hless

/-- With a candidate, the replacement is what all have in common; it is no shorter than the
word, so that the word is kept only where nothing is added to it. -/
theorem replacementFor_spec {typed : Text} {candidates : List Text} (hne : candidates ≠ [])
    (hstarts : ∀ name ∈ candidates, typed <+: name) :
    LongestCommon candidates (replacementFor typed candidates) := by
  cases candidates with
  | nil => exact absurd rfl hne
  | cons first rest =>
      have hcommon : LongestCommon (first :: rest) (shrinkAll first rest) :=
        shrinkAll_spec (LongestCommon.singleton first) rest
      rw [replacementFor]
      split
      · exact hcommon
      · next hkept =>
          have htyped : typed <+: shrinkAll first rest := hcommon.longest typed hstarts
          have hsame : typed = shrinkAll first rest := by
            obtain ⟨added, hadded⟩ := htyped
            cases added with
            | nil => rw [← hadded, List.append_nil]
            | cons c added =>
                refine absurd (.inr ?_) hkept
                have hc := c.utf8Size_pos
                rw [← hadded, len_append, len_cons]
                omega
          rwa [← hsame] at hcommon

theorem mem_dedup_iff {α : Type*} [DecidableEq α] {values : List α} {value : α} :
    value ∈ dedup values ↔ value ∈ values := by
  fun_induction dedup values with
  | case1 => rfl
  | case2 => rfl
  | case3 next rest ih => simpa using ih
  | case4 first next rest _ ih => simp only [List.mem_cons, ih]

theorem pairwise_dedup {α : Type*} [PartialOrder α] [DecidableEq α] {values : List α}
    (h : values.Pairwise (· ≤ ·)) : (dedup values).Pairwise (· < ·) := by
  fun_induction dedup values with
  | case1 => exact List.Pairwise.nil
  | case2 value => exact List.pairwise_singleton ..
  | case3 next rest ih => exact ih h.of_cons
  | case4 first next rest hne ih =>
      refine List.pairwise_cons.mpr ⟨?_, ih h.of_cons⟩
      intro other hother
      have hnext : first < next :=
        lt_of_le_of_ne (List.rel_of_pairwise_cons h List.mem_cons_self) hne
      rcases List.mem_cons.mp (mem_dedup_iff.mp hother) with rfl | hrest
      · exact hnext
      · exact hnext.trans_le (List.rel_of_pairwise_cons h.of_cons hrest)

end Replacement

section Completion

/-- The line of a request, taken apart before the word and at the cursor. -/
structure Place (request : PtyCompleteRequest) (front typed back : Text) : Prop where
  line : request.line = front ++ typed ++ back
  cursor : len Char.utf8Size (front ++ typed) = clampedCursor request
  tokenStart : completionTokenStart request.line (clampedCursor request) =
    some (len Char.utf8Size front)
  segmentStart : ∃ start ≤ len Char.utf8Size front,
    commandSegmentStart request.line (len Char.utf8Size front) = some start

/-- What a completion is: the text inserted at the cursor, and all the candidates. `carried` is
what the numbers of the result carry of a number. -/
structure Inserts (carried : Nat → Nat) (request : PtyCompleteRequest) (candidates : List Text)
    (result : PtyCompleteResult) (front typed back inserted : Text) (all : List Text) : Prop
    extends Place request front typed back where
  resultLine : result.line = front ++ typed ++ inserted ++ back
  resultCursor : result.cursor.toNat =
    carried (clampedCursor request + len Char.utf8Size inserted)
  sorted : all.Pairwise (· < ·)
  mem_iff : ∀ name, name ∈ all ↔ name ∈ candidates
  starts : ∀ name ∈ all, typed <+: name
  truncated : result.candidates = all.take maxCompletionCandidates
  candidateCount : result.candidateCount.toNat = carried all.length
  longest : all ≠ [] → LongestCommon all (typed ++ inserted)
  unchanged : all = [] → inserted = []

theorem mem_distinct_iff {candidates : List Text} {name : Text} :
    name ∈ distinct candidates ↔ name ∈ candidates := by
  rw [distinct, mem_dedup_iff, List.mem_mergeSort]

theorem pairwise_distinct (candidates : List Text) : (distinct candidates).Pairwise (· < ·) := by
  refine pairwise_dedup ?_
  have hsorted : (candidates.mergeSort fun a b => decide (a ≤ b)).Pairwise
      fun a b => decide (a ≤ b) = true :=
    List.pairwise_mergeSort
      (fun a b c hab hbc => by simpa using le_trans (by simpa using hab) (by simpa using hbc))
      (fun a b => by simpa using le_total a b) candidates
  simpa using hsorted

theorem replacementFor_starts {typed : Text} {all : List Text}
    (hstarts : ∀ name ∈ all, typed <+: name) :
    ∃ inserted, replacementFor typed all = typed ++ inserted ∧
      (all ≠ [] → LongestCommon all (typed ++ inserted)) ∧ (all = [] → inserted = []) := by
  by_cases hne : all = []
  · subst hne
    exact ⟨[], (List.append_nil typed).symm, fun h => absurd rfl h, fun _ => rfl⟩
  · have hlongest := replacementFor_spec hne hstarts
    obtain ⟨inserted, hinserted⟩ := hlongest.longest typed hstarts
    exact ⟨inserted, hinserted.symm, fun _ => by rwa [hinserted], fun h => absurd h hne⟩

theorem splitAt_slash (typed : Text) : ∃ directoryText needle, typed = directoryText ++ needle ∧
    splitAt Char.utf8Size typed
      (((rfind Char.utf8Size (· == '/') typed).map (· + 1)).getD 0) =
        some (directoryText, needle) := by
  cases hfind : rfind Char.utf8Size (· == '/') typed with
  | none => exact ⟨[], typed, rfl, splitAt_len Char.utf8Size_pos [] typed⟩
  | some offset =>
      obtain ⟨front, slash, needle, htyped, hlen, hslash⟩ := rfind_spec hfind
      rw [List.append_cons] at htyped
      refine ⟨front ++ [slash], needle, htyped, ?_⟩
      refine (splitAt_eq_some_iff Char.utf8Size_pos).mpr ⟨htyped, ?_⟩
      rw [eq_of_beq hslash, len_append, hlen]
      rfl

/-- What a request goes through, whatever is made of the candidates: its line is taken apart,
and unless something cannot be read, candidates are gathered that start with the word. -/
theorem completeWith_spec (world : World) (request : PtyCompleteRequest) :
    ∃ (front typed back : Text) (outcome : Except String (List Text)),
      Place request front typed back ∧
      (∀ candidates, outcome = .ok candidates → ∀ name ∈ candidates, typed <+: name) ∧
      ∀ {β : Type} (finish : Nat → Nat → Text → List Text → Option β),
        completeWith finish world request =
          match outcome with
          | .error error => some (.error error)
          | .ok candidates =>
              (finish (len Char.utf8Size front) (clampedCursor request) typed candidates).map
                .ok := by
  obtain ⟨whole, back, hline, hcursor, -, -⟩ := clampedCursor_spec request
  obtain ⟨front, typed, rfl, htoken⟩ := scanStart_spec tokenStep_start whole back
  obtain ⟨kept, segment, hfront, hsegment⟩ :=
    scanStart_spec segmentStep_start front (typed ++ back)
  obtain ⟨⟨commandPosition, command⟩, hcontext⟩ := commandContext_isSome front (typed ++ back)
  have htyped := slice_len Char.utf8Size_pos front typed back
  rw [← List.append_assoc, ← hline] at hsegment hcontext
  rw [← hline, hcursor] at htoken htyped
  have hplace : Place request front typed back :=
    { line := hline
      cursor := hcursor
      tokenStart := htoken
      segmentStart := ⟨_, len_le_of_starts ⟨segment, hfront.symm⟩, hsegment⟩ }
  obtain ⟨directoryText, needle, hparts, hsplit⟩ := splitAt_slash typed
  refine ⟨front, typed, back, ?_⟩
  have hrun : ∀ {β : Type} (finish : Nat → Nat → Text → List Text → Option β),
      completeWith finish world request =
        if commandPosition && !typed.contains '/' then
          (finish (len Char.utf8Size front) (clampedCursor request) typed
            (programCandidates world typed)).map .ok
        else if typed = ['~'] then
          (finish (len Char.utf8Size front) (clampedCursor request) typed ["~/".toList]).map .ok
        else
          match world.cwd with
          | .error error => some (.error error)
          | .ok cwd =>
              match world.completionEntries 0 (searchDir world cwd directoryText) with
              | .error error => some (.error error)
              | .ok entries =>
                  (finish (len Char.utf8Size front) (clampedCursor request) typed
                    (pathCandidates directoryText needle (command = some "cd".toList)
                      entries)).map .ok := by
    intro β finish
    rw [completeWith]
    simp only [Option.bind_eq_bind, completionTokenStart, htoken, Option.bind_some, htyped,
      hcontext, hsplit]
    rfl
  by_cases hprogram : (commandPosition && !typed.contains '/') = true
  · refine ⟨.ok (programCandidates world typed), hplace, ?_, fun finish => ?_⟩
    · rintro candidates ⟨⟩ name hname
      exact starts_of_mem_programCandidates hname
    · rw [hrun, if_pos hprogram]
  by_cases hhome : typed = ['~']
  · refine ⟨.ok ["~/".toList], hplace, ?_, fun finish => ?_⟩
    · rintro candidates ⟨⟩ name hname
      rw [List.mem_singleton.mp hname, hhome]
      exact ⟨['/'], rfl⟩
    · rw [hrun, if_neg hprogram, if_pos hhome]
  cases hcwd : world.cwd with
  | error error =>
      refine ⟨.error error, hplace, (nomatch ·, ·), fun finish => ?_⟩
      rw [hrun, if_neg hprogram, if_neg hhome, hcwd]
  | ok cwd =>
      cases hentries : world.completionEntries 0 (searchDir world cwd directoryText) with
      | error error =>
          refine ⟨.error error, hplace, (nomatch ·, ·), fun finish => ?_⟩
          rw [hrun, if_neg hprogram, if_neg hhome, hcwd]
          simp only [hentries]
      | ok entries =>
          refine ⟨.ok (pathCandidates directoryText needle (command = some "cd".toList) entries),
            hplace, ?_, fun finish => ?_⟩
          · rintro candidates ⟨⟩ name hname
            rw [hparts]
            exact starts_of_mem_pathCandidates hname
          · rw [hrun, if_neg hprogram, if_neg hhome, hcwd]
            simp only [hentries]

/-- Every request is answered without a slice out of place, and a completion inserts at the
cursor the longest text that the candidates have in common. -/
theorem completePtyPath_inserts (world : World) (request : PtyCompleteRequest) :
    ∃ outcome, completePtyPath world request = some outcome ∧
      ∀ result, outcome = .ok result →
        ∃ candidates, gathered world request = some (.ok candidates) ∧
          ∃ front typed back inserted all,
            Inserts (· % 2 ^ 32) request candidates result front typed back inserted all := by
  obtain ⟨front, typed, back, found, hplace, hstarts, hrun⟩ := completeWith_spec world request
  rw [completePtyPath, gathered, hrun, hrun]
  cases found with
  | error error => exact ⟨.error error, rfl, fun result hresult => (nomatch hresult)⟩
  | ok candidates =>
      have hall : ∀ name ∈ distinct candidates, typed <+: name := fun name hname =>
        hstarts candidates rfl name (mem_distinct_iff.mp hname)
      obtain ⟨inserted, hreplacement, hlongest, hunchanged⟩ := replacementFor_starts hall
      have hreplaced := replaceRange_len Char.utf8Size_pos front typed back (typed ++ inserted)
      rw [← hplace.line, hplace.cursor] at hreplaced
      simp only [finishCompletion, hreplacement, hreplaced, Option.bind_eq_bind,
        Option.bind_some]
      refine ⟨_, rfl, ?_⟩
      rintro result ⟨⟩
      refine ⟨candidates, rfl, front, typed, back, inserted, distinct candidates, ?_⟩
      exact
        { toPlace := hplace
          resultLine := by simp only [List.append_assoc]
          resultCursor := by
            rw [← hplace.cursor, len_append, len_append, ← Nat.add_assoc]
            exact UInt32.toNat_ofNat'
          sorted := pairwise_distinct candidates
          mem_iff := fun name => mem_distinct_iff
          starts := hall
          truncated := rfl
          candidateCount := UInt32.toNat_ofNat'
          longest := hlongest
          unchanged := hunchanged }

/-- A device with these programs in its one directory. -/
def programWorld (names : List Text) : World where
  environ := some [some "PATH=/bin".toList]
  cwd := .error "read PTY cwd for pid 1"
  completionEntries _ _ := .ok (names.map fun name => ⟨name, false⟩)

def emptyRequest : PtyCompleteRequest := ⟨[], 0⟩

theorem completeWith_programs {β : Type} (finish : Nat → Nat → Text → List Text → Option β)
    (names : List Text) :
    completeWith finish (programWorld names) emptyRequest =
      (finish 0 0 [] (programCandidates (programWorld names) [])).map .ok := rfl

theorem mem_programCandidates_programs {names : List Text} {name : Text} :
    name ∈ programCandidates (programWorld names) [] ↔ name ∈ names := by
  have hdirectories : (programDirectories (programWorld names)).zipIdx = [("/bin".toList, 0)] :=
    rfl
  rw [mem_programCandidates_iff, hdirectories]
  simp only [List.mem_singleton, exists_eq_left, programWorld, Except.ok.injEq, exists_eq_left',
    Offers, List.mem_map, exists_exists_and_eq_and, List.nil_prefix, and_true, true_and,
    exists_eq_right]

section Casts

variable {names : List Text} {result : PtyCompleteResult} {front typed back inserted : Text}
  {all : List Text}

theorem length_lt_of_inserts (hnodup : names.Nodup)
    (h : Inserts id emptyRequest (programCandidates (programWorld names) []) result front typed
      back inserted all) : names.length < 2 ^ 32 := by
  have hperm : all.Perm names := by
    refine (List.perm_ext_iff_of_nodup (h.sorted.imp ne_of_lt) hnodup).mpr ?_
    intro name
    rw [h.mem_iff, mem_programCandidates_programs]
  have hcount := h.candidateCount
  rw [id, hperm.length_eq] at hcount
  exact hcount ▸ UInt32.toNat_lt _

theorem len_lt_of_inserts {name : Text}
    (h : Inserts id emptyRequest (programCandidates (programWorld [name]) []) result front typed
      back inserted all) : len Char.utf8Size name < 2 ^ 32 := by
  have hall : ∀ other, other ∈ all ↔ other = name := by
    intro other
    rw [h.mem_iff, mem_programCandidates_programs, List.mem_singleton]
  have hne : all ≠ [] := List.ne_nil_of_mem ((hall name).mpr rfl)
  obtain ⟨rfl, rfl, rfl⟩ : front = [] ∧ typed = [] ∧ back = [] := by
    simpa [emptyRequest] using h.line.symm
  have hprefix : name <+: inserted :=
    (h.longest hne).longest name fun other hother => ((hall other).mp hother) ▸ List.prefix_rfl
  obtain ⟨rest, rfl⟩ := hprefix
  have hcursor := h.resultCursor
  rw [id, len_append] at hcursor
  have hlt := UInt32.toNat_lt result.cursor
  omega

theorem len_replicate (count : Nat) : len Char.utf8Size (List.replicate count 'a') = count := by
  have hsize : Char.utf8Size 'a' = 1 := rfl
  simp [len, hsize]

/-- Neither the number of candidates nor the cursor behind a completion need fit a `u32`. -/
theorem not_completePtyPath_inserts_crowded :
    (∃ result candidates,
      completePtyPath (programWorld ((List.range (2 ^ 32)).map decimalText)) emptyRequest =
          some (.ok result) ∧
        gathered (programWorld ((List.range (2 ^ 32)).map decimalText)) emptyRequest =
          some (.ok candidates) ∧
        ¬ ∃ front typed back inserted all,
          Inserts id emptyRequest candidates result front typed back inserted all) ∧
      ∃ result candidates,
        completePtyPath (programWorld [List.replicate (2 ^ 32) 'a']) emptyRequest =
            some (.ok result) ∧
          gathered (programWorld [List.replicate (2 ^ 32) 'a']) emptyRequest =
            some (.ok candidates) ∧
          ¬ ∃ front typed back inserted all,
            Inserts id emptyRequest candidates result front typed back inserted all := by
  refine ⟨⟨_, _, completeWith_programs _ _, completeWith_programs _ _, ?_⟩,
    ⟨_, _, completeWith_programs _ _, completeWith_programs _ _, ?_⟩⟩
  · rintro ⟨front, typed, back, inserted, all, hinserts⟩
    have hnames : ((List.range (2 ^ 32)).map decimalText).Nodup :=
      List.Nodup.map (fun _ _ => decimalText_inj) List.nodup_range
    have hlength := length_lt_of_inserts hnames hinserts
    rw [List.length_map, List.length_range] at hlength
    exact Nat.lt_irrefl _ hlength
  · rintro ⟨front, typed, back, inserted, all, hinserts⟩
    have hlength := len_lt_of_inserts hinserts
    rw [len_replicate] at hlength
    exact Nat.lt_irrefl _ hlength

end Casts

end Completion

end SideWire.PtyCompletion
