import Mathlib.Data.List.DropRight
import Mathlib.Data.List.Forall2
import Mathlib.Data.List.Induction
import SideWire.PairingStore

/-!
How recursive transfers map paths between host and device: `remote_join` for a push,
`local_relative` for a pull.
-/

namespace SideWire.TransferPaths

open SideWire.PairingStore

/-- What the host runs on, as far as the syntax of its paths depends on it. -/
inductive Platform
  | unix
  | windows
  deriving DecidableEq

namespace Platform

def mainSeparator : Platform → Char
  | .unix => '/'
  | .windows => '\\'

def isSep : Platform → Char → Bool
  | .unix, c => c == '/'
  | .windows, c => c == '/' || c == '\\'

/-- The path starts with a drive, such as `C:`. -/
def hasDrive : Platform → Text → Bool
  | .windows, letter :: colon :: _ => letter.isAlpha && colon == ':'
  | _, _ => false

end Platform

inductive Component
  | curDir
  | parentDir
  | normal (name : Text)
  deriving DecidableEq

/-- What a part between separators stands for; a `.` counts only at the start. -/
def component (part : Text) : Option Component :=
  if part = [] ∨ part = ['.'] then none
  else if part = ['.', '.'] then some .parentDir
  else some (.normal part)

/-- `Path::components`, or nothing where the path starts with a prefix or with its root. -/
def components (platform : Platform) (path : Text) : Option (List Component) :=
  if path.head?.any platform.isSep || platform.hasDrive path then none
  else
    let parts := path.splitOnP platform.isSep
    some ((if parts.head? = some ['.'] then [.curDir] else []) ++ parts.filterMap component)

/-- `PathBuf::push` of a path that starts with neither a prefix nor a root. -/
def push (platform : Platform) (output name : Text) : Text :=
  if output.getLast?.all platform.isSep then output ++ name
  else output ++ platform.mainSeparator :: name

/-! The push. -/

def remoteJoinLoop (relative output : Text) : List Component → Except String Text
  | [] => .ok output
  | .curDir :: rest => remoteJoinLoop relative output rest
  | .normal part :: rest =>
      let output := if output.getLast? = some '/' then output else output ++ ['/']
      remoteJoinLoop relative (output ++ part) rest
  | .parentDir :: _ =>
      let text := String.ofList relative
      .error s!"unsupported local path component in {text}"

def remoteJoin (platform : Platform) (base relative : Text) : Except String Text :=
  let output := if base = ['/'] then ['/'] else base.rdropWhile (· == '/')
  match components platform relative with
  | none =>
      let text := String.ofList relative
      .error s!"unsupported local path component in {text}"
  | some found => remoteJoinLoop relative output found

/-! The pull. -/

def localRelativeLoop (platform : Platform) (remotePath output : Text) :
    List Text → Except String Text
  | [] => .ok output
  | part :: rest =>
      if part = [] ∨ part = ['.'] then localRelativeLoop platform remotePath output rest
      else
        match components platform part with
        | some [.normal name] =>
            localRelativeLoop platform remotePath (push platform output name) rest
        | _ =>
            let text := String.ofList remotePath
            .error s!"unsafe remote path '{text}'"

def localRelative (platform : Platform) (remoteRoot remotePath : Text) :
    Except String Text :=
  let root := remoteRoot.rdropWhile (· == '/')
  if root = [] then
    localRelativeLoop platform remotePath []
      ((remotePath.dropWhile (· == '/')).splitOnP (· == '/'))
  else
    match stripStart root remotePath with
    | none =>
        let path := String.ofList remotePath
        let root := String.ofList remoteRoot
        .error s!"'{path}' is outside '{root}'"
    | some relative =>
        localRelativeLoop platform remotePath []
          ((relative.dropWhile (· == '/')).splitOnP (· == '/'))

/-! Component lists of the device's paths. -/

/-- The components of a path on the device, which `.` and empty ones are not. -/
def parts (path : Text) : List Text :=
  (path.splitOnP (· == '/')).filter fun part => decide (part ≠ [] ∧ part ≠ ['.'])

def isAbsolute (path : Text) : Bool := path.head? == some '/'

section Parts

theorem parts_append (path rest : Text) :
    parts (path ++ '/' :: rest) = parts path ++ parts rest := by
  rw [parts, List.splitOnP_append_cons path rest (by simp), List.filter_append]
  rfl

theorem parts_cons (rest : Text) : parts ('/' :: rest) = parts rest := parts_append [] rest

theorem parts_dropWhile (path : Text) : parts (path.dropWhile (· == '/')) = parts path := by
  induction path with
  | nil => rfl
  | cons c path ih =>
      by_cases hc : c = '/'
      · subst hc
        rw [List.dropWhile_cons_of_pos (by simp), ih, parts_cons]
      · rw [List.dropWhile_cons_of_neg (by simpa using hc)]

theorem parts_rdropWhile (path : Text) : parts (path.rdropWhile (· == '/')) = parts path := by
  induction path using List.reverseRecOn with
  | nil => rfl
  | append_singleton path c ih =>
      by_cases hc : c = '/'
      · subst hc
        have hnil : parts [] = [] := rfl
        rw [List.rdropWhile_concat_pos _ _ _ (by simp), ih, parts_append, hnil, List.append_nil]
      · rw [List.rdropWhile_concat_neg _ _ _ (by simpa using hc)]

theorem parts_eq_singleton {part : Text} (hslash : '/' ∉ part) (hnil : part ≠ [])
    (hdot : part ≠ ['.']) : parts part = [part] := by
  have hsplit : part.splitOnP (· == '/') = [part] := by
    apply List.splitOnP_eq_singleton
    intro c hc
    simp only [beq_eq_false_iff_ne]
    rintro rfl
    exact hslash hc
  rw [parts, hsplit, List.filter_cons_of_pos (by simp [hnil, hdot]), List.filter_nil]

end Parts

/-! Names that are paths by themselves. -/

/-- The name that a part of a reported path gives, where it gives one. -/
def partName (platform : Platform) (part : Text) : Option Text :=
  match components platform part with
  | some [.normal name] => some name
  | _ => none

/-- The path of the name alone has it as its one component. -/
def IsPlain (platform : Platform) (name : Text) : Prop :=
  components platform name = some [.normal name]

section Names

variable {platform : Platform} {part name : Text}

theorem partName_eq_some_iff :
    partName platform part = some name ↔ components platform part = some [.normal name] := by
  rw [partName]
  split <;> simp_all

theorem isSep_slash (platform : Platform) : platform.isSep '/' = true := by
  cases platform <;> rfl

theorem isSep_mainSeparator (platform : Platform) :
    platform.isSep platform.mainSeparator = true := by
  cases platform <;> rfl

theorem not_isSep_of_forall (h : ∀ c ∈ name, platform.isSep c = false) : '/' ∉ name :=
  fun hslash => Bool.false_ne_true ((h _ hslash).symm.trans (isSep_slash platform))

theorem component_eq_some_normal_iff :
    component part = some (.normal name) ↔
      part = name ∧ name ≠ [] ∧ name ≠ ['.'] ∧ name ≠ ['.', '.'] := by
  rw [component]
  split_ifs with hskip hparent
  · simp only [false_iff]
    rintro ⟨rfl, hnil, hdot, -⟩
    exact hskip.elim hnil hdot
  · simp only [Option.some.injEq, reduceCtorEq, false_iff]
    rintro ⟨rfl, -, -, hne⟩
    exact hne hparent
  · rw [not_or] at hskip
    simp only [Option.some.injEq, Component.normal.injEq]
    constructor
    · rintro rfl
      exact ⟨rfl, hskip.1, hskip.2, hparent⟩
    · exact And.left

theorem head?_splitOnP (p : Char → Bool) (path : Text) :
    (path.splitOnP p).head? = some (path.takeWhile fun c => !p c) := by
  induction path with
  | nil => rfl
  | cons c path ih =>
      rw [List.splitOnP_cons_eq_if_modifyHead]
      cases hc : p c with
      | true => rw [if_pos rfl, List.takeWhile_cons_of_neg (by simp [hc])]; rfl
      | false =>
          rw [if_neg (by simp), List.head?_modifyHead, ih,
            List.takeWhile_cons_of_pos (by simp [hc])]
          rfl

theorem hasDrive_of_starts {path : Text} (h : name <+: path)
    (hdrive : platform.hasDrive name = true) : platform.hasDrive path = true := by
  obtain ⟨rest, rfl⟩ := h
  cases platform with
  | unix => simp [Platform.hasDrive] at hdrive
  | windows =>
      cases name with
      | nil => simp [Platform.hasDrive] at hdrive
      | cons letter name =>
          cases name with
          | nil => simp [Platform.hasDrive] at hdrive
          | cons colon name => exact hdrive

theorem components_eq_singleton (h : components platform part = some [.normal name]) :
    (part.takeWhile fun c => !platform.isSep c) = name ∧ name ≠ [] ∧ name ≠ ['.'] ∧
      name ≠ ['.', '.'] ∧ platform.hasDrive part = false := by
  unfold components at h
  split_ifs at h with hstart
  simp only [Bool.or_eq_true, not_or, Bool.not_eq_true] at hstart
  obtain ⟨hsep, hdrive⟩ := hstart
  have hfirst := head?_splitOnP platform.isSep part
  cases hsplit : part.splitOnP platform.isSep with
  | nil => exact absurd hsplit (List.splitOnP_ne_nil _ _)
  | cons first rest =>
      rw [hsplit, List.head?_cons, Option.some.injEq] at hfirst
      simp only [hsplit, List.head?_cons, Option.some.injEq] at h
      by_cases hdot : first = ['.']
      · rw [if_pos hdot] at h
        exact absurd (List.cons.inj h).1 (by simp)
      · rw [if_neg hdot, List.nil_append, List.filterMap_cons] at h
        have hcomponent : component first = some (.normal name) := by
          cases hcomponent : component first with
          | some found =>
              rw [hcomponent] at h
              rw [(List.cons.inj h).1]
          | none =>
              -- a first part that is empty belongs to an empty path
              have hnil : first = [] := by
                by_contra hnil
                rw [component, if_neg (by simp [hnil, hdot])] at hcomponent
                split_ifs at hcomponent
              have hpart : part = [] := by
                cases part with
                | nil => rfl
                | cons c part =>
                    have hc : platform.isSep c = false := by simpa using hsep
                    rw [List.takeWhile_cons_of_pos (by simp [hc]), hnil] at hfirst
                    exact absurd hfirst (by simp)
              subst hpart
              rw [List.splitOnP_nil] at hsplit
              obtain rfl := (List.cons.inj hsplit).2
              simp [hcomponent] at h
        obtain ⟨rfl, hname⟩ := component_eq_some_normal_iff.mp hcomponent
        exact ⟨hfirst.symm, hname.1, hname.2.1, hname.2.2, hdrive⟩

theorem isPlain_iff :
    IsPlain platform name ↔ name ≠ [] ∧ name ≠ ['.'] ∧ name ≠ ['.', '.'] ∧
      (∀ c ∈ name, platform.isSep c = false) ∧ platform.hasDrive name = false := by
  constructor
  · intro h
    obtain ⟨htake, hnil, hdot, hparent, hdrive⟩ := components_eq_singleton h
    refine ⟨hnil, hdot, hparent, ?_, hdrive⟩
    intro c hc
    rw [← htake] at hc
    simpa using List.mem_takeWhile_imp hc
  · rintro ⟨hnil, hdot, hparent, hsep, hdrive⟩
    have hstart : name.head?.any platform.isSep = false := by
      cases name with
      | nil => rfl
      | cons c name => exact hsep c List.mem_cons_self
    have hcomponent : component name = some (.normal name) :=
      component_eq_some_normal_iff.mpr ⟨rfl, hnil, hdot, hparent⟩
    rw [IsPlain, components, hstart, hdrive, if_neg (by simp)]
    simp only [List.splitOnP_eq_singleton hsep, List.head?_cons, Option.some.injEq, if_neg hdot,
      List.nil_append, List.filterMap_cons, hcomponent, List.filterMap_nil]

theorem isPlain_of_partName (h : partName platform part = some name) :
    IsPlain platform name := by
  obtain ⟨htake, hnil, hdot, hparent, hdrive⟩ :=
    components_eq_singleton (partName_eq_some_iff.mp h)
  refine isPlain_iff.mpr ⟨hnil, hdot, hparent, ?_, ?_⟩
  · intro c hc
    rw [← htake] at hc
    simpa using List.mem_takeWhile_imp hc
  · by_contra hname
    rw [Bool.not_eq_false] at hname
    have hstart : name <+: part := htake ▸ List.takeWhile_prefix _
    exact Bool.false_ne_true (hdrive.symm.trans (hasDrive_of_starts hstart hname))

end Names

/-! The path that is put together. -/

section Pushing

variable {platform : Platform} {output name : Text} {names : List Text}

/-- The path so far: it has just the given names, and does not end with a separator. -/
structure HasNames (platform : Platform) (output : Text) (names : List Text) : Prop where
  found : components platform output = some (names.map .normal)
  last : ∀ c ∈ output.getLast?, platform.isSep c = false
  nil_iff : output = [] ↔ names = []

theorem hasNames_nil (platform : Platform) : HasNames platform [] [] := by
  refine ⟨?_, by simp, by simp⟩
  cases platform <;> rfl

theorem hasNames_singleton (h : IsPlain platform name) : HasNames platform name [name] := by
  obtain ⟨hnil, -, -, hsep, -⟩ := isPlain_iff.mp h
  exact ⟨h, fun c hc => hsep c (List.mem_of_mem_getLast? hc), by simp [hnil]⟩

theorem components_append_cons (hnil : output ≠ []) {sep : Char}
    (hsep : platform.isSep sep = true) {found : List Component}
    (hfound : components platform output = some found) (hname : IsPlain platform name) :
    components platform (output ++ sep :: name) = some (found ++ [.normal name]) := by
  obtain ⟨hnameNil, hdot, hparent, hnameSep, -⟩ := isPlain_iff.mp hname
  have hcomponent : component name = some (.normal name) :=
    component_eq_some_normal_iff.mpr ⟨rfl, hnameNil, hdot, hparent⟩
  unfold components at hfound ⊢
  split_ifs at hfound with hstart
  obtain ⟨c, output, rfl⟩ := List.exists_cons_of_ne_nil hnil
  have hdrive : platform.hasDrive (c :: output ++ sep :: name) =
      platform.hasDrive (c :: output) := by
    cases platform with
    | unix => rfl
    | windows =>
        cases output with
        | cons colon output => rfl
        | nil =>
            have hcolon : sep ≠ ':' := by
              rintro rfl
              exact absurd hsep (by decide)
            simp [Platform.hasDrive, hcolon]
  have hhead : (c :: output ++ sep :: name).head? = (c :: output).head? := rfl
  rw [hdrive, hhead, if_neg hstart]
  obtain ⟨first, rest, hsplit⟩ :=
    List.exists_cons_of_ne_nil (List.splitOnP_ne_nil platform.isSep (c :: output))
  have hwhole : (c :: output ++ sep :: name).splitOnP platform.isSep = first :: rest ++ [name] := by
    rw [List.splitOnP_append_cons _ _ hsep, List.splitOnP_eq_singleton hnameSep, hsplit]
  have hlast : [name].filterMap component = [.normal name] := by
    rw [List.filterMap_cons, hcomponent, List.filterMap_nil]
  rw [← Option.some.inj hfound, hwhole, hsplit]
  simp only [List.filterMap_append, hlast, List.append_assoc]
  rfl

theorem HasNames.push (h : HasNames platform output names) (hname : IsPlain platform name) :
    HasNames platform (push platform output name) (names ++ [name]) := by
  by_cases hnil : output = []
  · subst hnil
    obtain rfl := h.nil_iff.mp rfl
    exact hasNames_singleton hname
  · obtain ⟨hnameNil, -, -, hsep, -⟩ := isPlain_iff.mp hname
    have hpush : TransferPaths.push platform output name =
        output ++ platform.mainSeparator :: name := by
      obtain ⟨c, hc⟩ := Option.isSome_iff_exists.mp (List.getLast?_isSome.mpr hnil)
      rw [TransferPaths.push, if_neg]
      rw [hc]
      simp [h.last c hc]
    rw [hpush]
    refine ⟨?_, ?_, by simp⟩
    · rw [components_append_cons hnil (isSep_mainSeparator platform) h.found hname,
        List.map_append]
      rfl
    · intro c hc
      rw [List.getLast?_append, List.getLast?_cons, List.getLast?_eq_some_getLast hnameNil] at hc
      have hc' : name.getLast hnameNil = c := by simpa using hc
      exact hsep c (hc' ▸ List.getLast_mem hnameNil)

theorem HasNames.foldl_push {more : List Text} (h : HasNames platform output names)
    (hmore : ∀ name ∈ more, IsPlain platform name) :
    HasNames platform (more.foldl (TransferPaths.push platform) output) (names ++ more) := by
  induction more generalizing output names with
  | nil => simpa using h
  | cons name more ih =>
      obtain ⟨hname, hmore⟩ := List.forall_mem_cons.mp hmore
      have hnext := ih (h.push hname) hmore
      rwa [List.append_assoc] at hnext

end Pushing

section Results

variable {platform : Platform} {remoteRoot remotePath result : Text}

/-- What the loop over the parts of a path accepts. -/
theorem localRelativeLoop_eq_ok_iff {output : Text} {found : List Text} :
    localRelativeLoop platform remotePath output found = .ok result ↔
      ∃ names, List.Forall₂ (fun part name => partName platform part = some name)
          (found.filter fun part => decide (part ≠ [] ∧ part ≠ ['.'])) names ∧
        result = names.foldl (push platform) output := by
  induction found generalizing output with
  | nil => simp [localRelativeLoop, eq_comm]
  | cons part found ih =>
      rw [localRelativeLoop]
      by_cases hskip : part = [] ∨ part = ['.']
      · rw [if_pos hskip, ih, List.filter_cons_of_neg (by simpa [imp_iff_not_or] using hskip)]
      · rw [if_neg hskip, List.filter_cons_of_pos (by simpa using not_or.mp hskip)]
        split
        · rename_i name hname
          rw [ih]
          constructor
          · rintro ⟨names, hnames, rfl⟩
            exact ⟨name :: names, .cons (partName_eq_some_iff.mpr hname) hnames, rfl⟩
          · rintro ⟨names, hnames, rfl⟩
            cases hnames with
            | cons hfirst hrest =>
                rw [partName_eq_some_iff.mpr hname, Option.some.injEq] at hfirst
                subst hfirst
                exact ⟨_, hrest, rfl⟩
        · rename_i hother
          simp only [reduceCtorEq, false_iff]
          rintro ⟨names, hnames, -⟩
          cases hnames with
          | cons hfirst _ => exact hother _ (partName_eq_some_iff.mp hfirst)

/-- What of the reported path stands behind the root, by the test of the code. -/
theorem localRelative_eq_ok_iff :
    localRelative platform remoteRoot remotePath = .ok result ↔
      ∃ tail names, remotePath = remoteRoot.rdropWhile (· == '/') ++ tail ∧
        List.Forall₂ (fun part name => partName platform part = some name) (parts tail) names ∧
        result = names.foldl (push platform) [] := by
  have hloop : ∀ tail, localRelativeLoop platform remotePath []
      ((tail.dropWhile (· == '/')).splitOnP (· == '/')) = .ok result ↔
      ∃ names, List.Forall₂ (fun part name => partName platform part = some name)
        (parts tail) names ∧ result = names.foldl (push platform) [] := by
    intro tail
    rw [localRelativeLoop_eq_ok_iff, ← parts_dropWhile tail]
    rfl
  unfold localRelative
  simp only
  split_ifs with hroot
  · rw [hloop, hroot]
    simp
  · cases hstrip : stripStart (remoteRoot.rdropWhile (· == '/')) remotePath with
    | none =>
        simp only [reduceCtorEq, false_iff]
        rintro ⟨tail, names, rfl, -⟩
        rw [stripStart_eq_some_iff.mpr rfl] at hstrip
        exact nomatch hstrip
    | some relative =>
        simp only [hloop]
        have hpath := stripStart_eq_some_iff.mp hstrip
        constructor
        · rintro ⟨names, hnames, hresult⟩
          exact ⟨relative, names, hpath, hnames, hresult⟩
        · rintro ⟨tail, names, htail, hnames, hresult⟩
          obtain rfl := List.append_cancel_left (hpath.symm.trans htail)
          exact ⟨names, hnames, hresult⟩

theorem hasNames_of_forall₂ {found names : List Text}
    (h : List.Forall₂ (fun part name => partName platform part = some name) found names) :
    HasNames platform (names.foldl (push platform) []) names := by
  apply (hasNames_nil platform).foldl_push
  induction h with
  | nil => simp
  | cons hpart _ ih => exact List.forall_mem_cons.mpr ⟨isPlain_of_partName hpart, ih⟩

end Results

/-! What a push sends where, and back. -/

section RoundTrip

variable {platform : Platform} {relative : Text} {names : List Text}

theorem not_mem_of_mem_splitOnP {p : Char → Bool} {path part : Text}
    (hpart : part ∈ path.splitOnP p) : ∀ c ∈ part, p c = false := by
  induction path generalizing part with
  | nil => simp_all
  | cons c path ih =>
      rw [List.splitOnP_cons_eq_if_modifyHead] at hpart
      obtain ⟨first, rest, hsplit⟩ := List.exists_cons_of_ne_nil (List.splitOnP_ne_nil p path)
      rw [hsplit] at hpart ih
      split_ifs at hpart with hc
      · rcases List.mem_cons.mp hpart with rfl | hpart
        · simp
        · exact ih hpart
      · rw [List.modifyHead_cons] at hpart
        rcases List.mem_cons.mp hpart with rfl | hpart
        · exact List.forall_mem_cons.mpr ⟨by simpa using hc, ih List.mem_cons_self⟩
        · exact ih (List.mem_cons_of_mem _ hpart)

theorem isPlain_of_components (h : components platform relative = some (names.map .normal))
    (hdrive : ∀ name ∈ names, platform.hasDrive name = false) :
    ∀ name ∈ names, IsPlain platform name := by
  intro name hname
  unfold components at h
  split_ifs at h
  have hmem : Component.normal name ∈
      (relative.splitOnP platform.isSep).filterMap component := by
    have hfound := List.mem_map_of_mem (f := Component.normal) hname
    rw [← Option.some.inj h, List.mem_append] at hfound
    refine hfound.resolve_left ?_
    split_ifs <;> simp
  obtain ⟨part, hpart, hcomponent⟩ := List.mem_filterMap.mp hmem
  obtain ⟨rfl, hnil, hdot, hparent⟩ := component_eq_some_normal_iff.mp hcomponent
  exact isPlain_iff.mpr
    ⟨hnil, hdot, hparent, not_mem_of_mem_splitOnP hpart, hdrive part hname⟩

/-- The path on the device with one more name. -/
def remotePush (output part : Text) : Text :=
  (if output.getLast? = some '/' then output else output ++ ['/']) ++ part

theorem remoteJoinLoop_normal (relative output : Text) (names : List Text) :
    remoteJoinLoop relative output (names.map .normal) = .ok (names.foldl remotePush output) := by
  induction names generalizing output with
  | nil => rfl
  | cons name names ih => exact ih _

theorem foldl_remotePush {root : Text} (hroot : root.getLast? ≠ some '/')
    (hnames : ∀ name ∈ names, parts name = [name]) (tail : Text) :
    ∃ tail', names.foldl remotePush (root ++ tail) = root ++ tail' ∧
      parts tail' = parts tail ++ names := by
  induction names generalizing tail with
  | nil => exact ⟨tail, rfl, by simp⟩
  | cons name names ih =>
      obtain ⟨hname, hnames⟩ := List.forall_mem_cons.mp hnames
      obtain ⟨middle, hmiddle, hparts⟩ : ∃ middle, remotePush (root ++ tail) name = root ++ middle ∧
          parts middle = parts tail ++ [name] := by
        rw [remotePush]
        split_ifs with hlast
        · rcases List.eq_nil_or_concat tail with rfl | ⟨init, c, rfl⟩
          · rw [List.append_nil] at hlast
            exact absurd hlast hroot
          · rw [List.concat_eq_append, ← List.append_assoc, List.getLast?_concat,
              Option.some.injEq] at hlast
            subst hlast
            refine ⟨init ++ '/' :: name, by simp, ?_⟩
            rw [List.concat_eq_append, parts_append, parts_append, hname]
            rw [show parts [] = [] from rfl, List.append_nil]
        · exact ⟨tail ++ '/' :: name, by simp, by rw [parts_append, hname]⟩
      obtain ⟨tail', htail', hparts'⟩ := ih hnames middle
      refine ⟨tail', ?_, ?_⟩
      · rw [List.foldl_cons, hmiddle, htail']
      · rw [hparts', hparts, List.append_assoc, List.singleton_append]

theorem getLast?_rdropWhile (path : Text) :
    (path.rdropWhile (· == '/')).getLast? ≠ some '/' := by
  intro h
  have hnil : path.rdropWhile (· == '/') ≠ [] := by
    intro hnil
    rw [hnil] at h
    exact nomatch h
  rw [List.getLast?_eq_some_getLast hnil, Option.some.injEq] at h
  exact List.rdropWhile_last_not _ _ hnil (by simp [h])

theorem remoteJoin_eq_ok (base : Text)
    (h : components platform relative = some (names.map .normal))
    (hplain : ∀ name ∈ names, IsPlain platform name) :
    ∃ tail, remoteJoin platform base relative =
        .ok (base.rdropWhile (· == '/') ++ tail) ∧ parts tail = names := by
  have hparts : ∀ name ∈ names, parts name = [name] := by
    intro name hname
    obtain ⟨hnil, hdot, -, hsep, -⟩ := isPlain_iff.mp (hplain name hname)
    exact parts_eq_singleton (not_isSep_of_forall hsep) hnil hdot
  have hroot := getLast?_rdropWhile base
  have hstart : ∃ tail, (if base = ['/'] then ['/'] else base.rdropWhile (· == '/')) =
      base.rdropWhile (· == '/') ++ tail ∧ parts tail = [] := by
    split_ifs with hbase
    · subst hbase
      exact ⟨['/'], rfl, rfl⟩
    · exact ⟨[], (List.append_nil _).symm, rfl⟩
  obtain ⟨start, hstart, hnone⟩ := hstart
  obtain ⟨tail, htail, hnames⟩ := foldl_remotePush hroot hparts start
  refine ⟨tail, ?_, by rw [hnames, hnone, List.nil_append]⟩
  rw [remoteJoin, h]
  simp only
  rw [remoteJoinLoop_normal, hstart, htail]

theorem forall₂_partName (h : ∀ name ∈ names, IsPlain platform name) :
    List.Forall₂ (fun part name => partName platform part = some name) names names :=
  List.forall₂_same.mpr fun name hname => partName_eq_some_iff.mpr (h name hname)

/-- Where a component leads from a directory. -/
def resolve (dir : List Text) : Component → List Text
  | .curDir => dir
  | .parentDir => dir.dropLast
  | .normal name => dir ++ [name]

theorem foldl_resolve (dir names : List Text) :
    (names.map Component.normal).foldl resolve dir = dir ++ names := by
  induction names generalizing dir with
  | nil => simp
  | cons name names ih =>
      rw [List.map_cons, List.foldl_cons, ih]
      simp [resolve]

/-- A pulled path has normal components only and leads nowhere above the directory that it is
joined to; and a path that was pushed without drives in it comes back. -/
theorem localRelative_remoteJoin (platform : Platform) :
    (∀ remoteRoot remotePath result,
        localRelative platform remoteRoot remotePath = .ok result →
        ∃ names : List Text, components platform result = some (names.map .normal) ∧
          ∀ dir, dir <+: (names.map Component.normal).foldl resolve dir) ∧
      ∀ (base relative : Text) (names : List Text),
        components platform relative = some (names.map .normal) →
        (∀ name ∈ names, platform.hasDrive name = false) →
        ∃ joined result, remoteJoin platform base relative = .ok joined ∧
          localRelative platform base joined = .ok result ∧
          components platform result = components platform relative := by
  constructor
  · intro remoteRoot remotePath result h
    obtain ⟨tail, names, -, hnames, rfl⟩ := localRelative_eq_ok_iff.mp h
    refine ⟨names, (hasNames_of_forall₂ hnames).found, fun dir => ?_⟩
    rw [foldl_resolve]
    exact List.prefix_append dir names
  · intro base relative names h hdrive
    have hplain := isPlain_of_components h hdrive
    obtain ⟨tail, hjoin, hparts⟩ := remoteJoin_eq_ok base h hplain
    have hnames := forall₂_partName hplain
    refine ⟨_, names.foldl (push platform) [], hjoin, ?_, ?_⟩
    · refine localRelative_eq_ok_iff.mpr ⟨tail, names, rfl, ?_, rfl⟩
      rwa [hparts]
    · rw [(hasNames_of_forall₂ hnames).found, h]

theorem localRelative_remoteJoin_nested :
    (∃ names : List Text, components .unix "a/b".toList = some (names.map .normal) ∧
        ∀ dir, dir <+: (names.map Component.normal).foldl resolve dir) ∧
      ∃ joined result, remoteJoin .windows "//".toList "a\\b".toList = .ok joined ∧
        localRelative .windows "//".toList joined = .ok result ∧
        components .windows result = components .windows "a\\b".toList :=
  ⟨(localRelative_remoteJoin .unix).1 "../data/".toList "../data//a/./b/".toList _ (by rfl),
    (localRelative_remoteJoin .windows).2 _ _ ["a".toList, "b".toList] (by decide) (by decide)⟩

/-- On Windows a component that looks like a drive is sent, but not taken back. -/
theorem not_localRelative_remoteJoin_drive :
    components .windows "a\\C:".toList = some (["a".toList, "C:".toList].map .normal) ∧
      remoteJoin .windows "/sdcard".toList "a\\C:".toList = .ok "/sdcard/a/C:".toList ∧
      ∀ result, localRelative .windows "/sdcard".toList "/sdcard/a/C:".toList ≠ .ok result := by
  refine ⟨by decide, by rfl, ?_⟩
  intro result h
  have herror : localRelative .windows "/sdcard".toList "/sdcard/a/C:".toList =
      .error "unsafe remote path '/sdcard/a/C:'" := by rfl
  exact nomatch herror.symm.trans h

end RoundTrip

end SideWire.TransferPaths
