import SideWire.TransferPaths

namespace SideWire.RootContainment

open SideWire.PairingStore
open SideWire.TransferPaths

variable {platform : Platform} {remoteRoot remotePath : Text}

/-- Only paths below the root are mapped, and each to what stands behind the root. -/
def Contained (platform : Platform) (remoteRoot remotePath : Text) : Prop :=
  ∀ result, localRelative platform remoteRoot remotePath = .ok result →
    ∃ rest, isAbsolute remotePath = isAbsolute remoteRoot ∧
      parts remotePath = parts remoteRoot ++ rest ∧ ['.', '.'] ∉ rest ∧
      components platform result = some (rest.map .normal)

/-- The path goes on from the text of the root, with safe parts only, but not as a path: the
root is empty without its slashes and only one of the two is absolute, or the text ends inside
a component; or a part has more to it than its name. -/
def Slips (platform : Platform) (remoteRoot remotePath : Text) : Prop :=
  ∃ tail, remotePath = remoteRoot.rdropWhile (· == '/') ++ tail ∧
    (∀ part ∈ parts tail, (partName platform part).isSome) ∧
    (remoteRoot.rdropWhile (· == '/') = [] ∧ isAbsolute remotePath ≠ isAbsolute remoteRoot ∨
      remoteRoot.rdropWhile (· == '/') ≠ [] ∧ tail ≠ [] ∧ isAbsolute tail = false ∨
      ∃ part ∈ parts tail, ¬ IsPlain platform part)

section Borders

theorem parts_append_of_isAbsolute {path rest : Text} (h : rest = [] ∨ isAbsolute rest = true) :
    parts (path ++ rest) = parts path ++ parts rest := by
  cases rest with
  | nil => rw [List.append_nil, show parts [] = [] from rfl, List.append_nil]
  | cons c rest =>
      have hc : c = '/' := by simpa [isAbsolute] using h
      rw [hc, parts_append, parts_cons]

theorem parts_append_of_getLast? {path rest : Text}
    (h : path = [] ∨ path.getLast? = some '/') :
    parts (path ++ rest) = parts path ++ parts rest := by
  rcases List.eq_nil_or_concat path with rfl | ⟨path, c, rfl⟩
  · rfl
  · rw [List.concat_eq_append] at h ⊢
    have hc : c = '/' := by simpa using h
    rw [hc, parts_append, show parts [] = [] from rfl, List.append_nil, List.append_assoc,
      List.singleton_append, parts_append]

theorem parts_append_of_border {root tail : Text}
    (h : ¬ (root.rdropWhile (· == '/') ≠ [] ∧ tail ≠ [] ∧ isAbsolute tail = false)) :
    parts (root.rdropWhile (· == '/') ++ tail) =
      parts (root.rdropWhile (· == '/')) ++ parts tail := by
  by_cases hroot : root.rdropWhile (· == '/') = []
  · exact parts_append_of_getLast? (.inl hroot)
  · apply parts_append_of_isAbsolute
    by_contra htail
    rw [not_or, Bool.not_eq_true] at htail
    exact h ⟨hroot, htail⟩

theorem exists_forall₂_partName_iff {found : List Text} :
    (∃ names, List.Forall₂ (fun part name => partName platform part = some name) found names) ↔
      ∀ part ∈ found, (partName platform part).isSome := by
  constructor
  · rintro ⟨names, hnames⟩
    induction hnames with
    | nil => simp
    | cons hname _ ih => exact List.forall_mem_cons.mpr ⟨by rw [hname]; rfl, ih⟩
  · intro h
    induction found with
    | nil => exact ⟨[], .nil⟩
    | cons part found ih =>
        obtain ⟨hpart, hfound⟩ := List.forall_mem_cons.mp h
        obtain ⟨name, hname⟩ := Option.isSome_iff_exists.mp hpart
        obtain ⟨names, hnames⟩ := ih hfound
        exact ⟨name :: names, .cons hname hnames⟩

theorem eq_of_forall₂_partName {found names : List Text}
    (h : List.Forall₂ (fun part name => partName platform part = some name) found names) :
    names = found ↔ ∀ part ∈ found, IsPlain platform part := by
  constructor
  · rintro rfl part hpart
    exact partName_eq_some_iff.mp (List.forall₂_same.mp h part hpart)
  · intro hplain
    induction h with
    | nil => rfl
    | cons hname _ ih =>
        obtain ⟨hpart, hfound⟩ := List.forall_mem_cons.mp hplain
        rw [partName_eq_some_iff.mpr hpart, Option.some.injEq] at hname
        rw [hname, ih hfound]

theorem length_partName_le {part name : Text} (h : partName platform part = some name) :
    name.length ≤ part.length := by
  obtain ⟨rfl, -⟩ := components_eq_singleton (partName_eq_some_iff.mp h)
  exact (List.takeWhile_prefix _).length_le

theorem partName_parent : partName platform ['.', '.'] = none := by
  cases platform <;> rfl

end Borders

theorem isAbsolute_append {path rest : Text} (h : path ≠ []) :
    isAbsolute (path ++ rest) = isAbsolute path := by
  obtain ⟨c, path, rfl⟩ := List.exists_cons_of_ne_nil h
  rfl

theorem isAbsolute_rdropWhile {path : Text} (h : path.rdropWhile (· == '/') ≠ []) :
    isAbsolute (path.rdropWhile (· == '/')) = isAbsolute path := by
  obtain ⟨rest, hrest⟩ := List.rdropWhile_prefix (fun c : Char => c == '/') path
  have happend : isAbsolute (path.rdropWhile (· == '/') ++ rest) =
      isAbsolute (path.rdropWhile (· == '/')) := isAbsolute_append h
  rw [hrest] at happend
  exact happend.symm

theorem exists_last_part {path : Text} (hnil : path ≠ []) (hlast : path.getLast? ≠ some '/') :
    ∃ init last, path = init ++ last ∧ (init = [] ∨ init.getLast? = some '/') ∧ last ≠ [] ∧
      '/' ∉ last := by
  refine ⟨path.rdropWhile (· ≠ '/'), path.rtakeWhile (· ≠ '/'),
    List.rdropWhile_append_rtakeWhile.symm, ?_, ?_, ?_⟩
  · by_cases hinit : path.rdropWhile (· ≠ '/') = []
    · exact .inl hinit
    · have hend := List.rdropWhile_last_not _ _ hinit
      rw [List.getLast?_eq_some_getLast hinit]
      exact .inr (congrArg some (by simpa only [ne_eq, decide_not, Bool.not_eq_true',
        decide_eq_false_iff_not, not_not] using hend))
  · rw [ne_eq, List.rtakeWhile_eq_nil_iff]
    intro hend
    have hslash := hend hnil
    rw [List.getLast?_eq_some_getLast hnil] at hlast
    simp_all
  · intro hmem
    simpa using List.mem_rtakeWhile_imp hmem

/-- A text that goes on inside the last component has not got the components of the root in
front, unless that component is a dot. -/
theorem not_parts_append {root tail : Text} (hroot : root ≠ [])
    (hlast : root.getLast? ≠ some '/') (htail : tail ≠ []) (habs : isAbsolute tail = false)
    {names rest : List Text}
    (hnames : List.Forall₂ (fun part name => partName platform part = some name)
      (parts tail) names)
    (hparts : parts (root ++ tail) = parts root ++ rest) (hparent : ['.', '.'] ∉ rest) :
    names ≠ rest := by
  obtain ⟨init, last, rfl, hinit, hlastNil, hlastSlash⟩ := exists_last_part hroot hlast
  -- the first part of the tail, which the last part of the root runs into
  obtain ⟨c, tail, rfl⟩ := List.exists_cons_of_ne_nil htail
  have hc : c ≠ '/' := by simpa [isAbsolute] using habs
  have hword : ∃ word more, c :: tail = word ++ more ∧ word ≠ [] ∧ '/' ∉ word ∧
      (more = [] ∨ isAbsolute more = true) := by
    refine ⟨(c :: tail).takeWhile (· ≠ '/'), (c :: tail).dropWhile (· ≠ '/'),
      List.takeWhile_append_dropWhile.symm, ?_, ?_, ?_⟩
    · rw [List.takeWhile_cons_of_pos (by simpa using hc)]
      exact List.cons_ne_nil _ _
    · intro hmem
      simpa using List.mem_takeWhile_imp hmem
    · have hhead := List.head?_dropWhile_not (· ≠ '/') (c :: tail)
      cases hmore : (c :: tail).dropWhile (· ≠ '/') with
      | nil => exact .inl rfl
      | cons d more =>
          rw [hmore] at hhead
          exact .inr (by simpa [isAbsolute] using hhead)
  obtain ⟨word, more, hsplit, hwordNil, hwordSlash, hmore⟩ := hword
  rw [hsplit] at hnames hparts
  have hjoined : parts (last ++ word) = [last ++ word] := by
    apply parts_eq_singleton
    · simp [hlastSlash, hwordSlash]
    · simp [hlastNil]
    · intro hdot
      have hlen := congrArg List.length hdot
      have hpos := List.length_pos_iff.mpr hlastNil
      have hpos' := List.length_pos_iff.mpr hwordNil
      simp only [List.length_append, List.length_singleton] at hlen
      omega
  have hpath : parts (init ++ last ++ (word ++ more)) =
      parts init ++ (last ++ word) :: parts more := by
    rw [← List.append_assoc, List.append_assoc init, parts_append_of_isAbsolute hmore,
      parts_append_of_getLast? hinit, hjoined, List.append_assoc, List.singleton_append]
  rw [hpath, parts_append_of_getLast? hinit, List.append_assoc] at hparts
  have hrest := List.append_cancel_left hparts
  rw [parts_append_of_isAbsolute hmore] at hnames
  by_cases hdot : last = ['.']
  · subst hdot
    rw [show parts ['.'] = [] from rfl, List.nil_append] at hrest
    subst hrest
    rintro rfl
    by_cases hword : word = ['.']
    · subst hword
      exact hparent List.mem_cons_self
    · rw [parts_eq_singleton hwordSlash hwordNil hword, List.singleton_append] at hnames
      cases hnames with
      | cons hfirst _ =>
          have hlen := length_partName_le hfirst
          simp at hlen
  · rw [parts_eq_singleton hlastSlash hlastNil hdot, List.singleton_append] at hrest
    have hword := (List.cons.inj hrest).1
    simp [hwordNil] at hword

/-- The test of the code is a containment exactly where the path does not slip through. -/
theorem contained_iff (platform : Platform) (remoteRoot remotePath : Text) :
    Contained platform remoteRoot remotePath ↔ ¬ Slips platform remoteRoot remotePath := by
  constructor
  · rintro hcontained ⟨tail, rfl, hsafe, hslip⟩
    obtain ⟨names, hnames⟩ := exists_forall₂_partName_iff.mpr hsafe
    obtain ⟨rest, habs, hparts, hparent, hfound⟩ := hcontained _
      (localRelative_eq_ok_iff.mpr ⟨tail, names, rfl, hnames, rfl⟩)
    rw [(hasNames_of_forall₂ hnames).found, Option.some.injEq] at hfound
    have hrest : names = rest :=
      List.map_injective_iff.mpr (fun _ _ h => Component.normal.inj h) hfound
    subst hrest
    rw [← parts_rdropWhile remoteRoot] at hparts
    by_cases hborder : remoteRoot.rdropWhile (· == '/') ≠ [] ∧ tail ≠ [] ∧
        isAbsolute tail = false
    · obtain ⟨hroot, htail, habsTail⟩ := hborder
      exact not_parts_append hroot (getLast?_rdropWhile remoteRoot) htail habsTail hnames hparts
        hparent rfl
    · rw [parts_append_of_border hborder] at hparts
      have hplain := (eq_of_forall₂_partName hnames).mp (List.append_cancel_left hparts).symm
      rcases hslip with ⟨-, hslip⟩ | hslip | ⟨part, hpart, hslip⟩
      · exact hslip habs
      · exact hborder hslip
      · exact hslip (hplain part hpart)
  · intro hslip result hresult
    obtain ⟨tail, names, rfl, hnames, rfl⟩ := localRelative_eq_ok_iff.mp hresult
    have hsafe := exists_forall₂_partName_iff.mp ⟨names, hnames⟩
    have hborder : ¬ (remoteRoot.rdropWhile (· == '/') ≠ [] ∧ tail ≠ [] ∧
        isAbsolute tail = false) :=
      fun hborder => hslip ⟨tail, rfl, hsafe, .inr (.inl hborder)⟩
    have hplain : ∀ part ∈ parts tail, IsPlain platform part := by
      intro part hpart
      by_contra hnot
      exact hslip ⟨tail, rfl, hsafe, .inr (.inr ⟨part, hpart, hnot⟩)⟩
    obtain rfl := (eq_of_forall₂_partName hnames).mpr hplain
    refine ⟨parts tail, ?_, ?_, ?_, (hasNames_of_forall₂ hnames).found⟩
    · by_cases hroot : remoteRoot.rdropWhile (· == '/') = []
      · by_contra habs
        exact hslip ⟨tail, rfl, hsafe, .inl ⟨hroot, habs⟩⟩
      · rw [isAbsolute_append hroot, isAbsolute_rdropWhile hroot]
    · rw [parts_append_of_border hborder, parts_rdropWhile]
    · intro hmem
      have hsome := hsafe _ hmem
      rw [partName_parent] at hsome
      exact nomatch hsome

/-- A sibling of the root whose name goes on from the root's. -/
theorem not_contained_sibling :
    localRelative .unix "/data/foo".toList "/data/foobar/x".toList = .ok "bar/x".toList ∧
      ¬ Contained .unix "/data/foo".toList "/data/foobar/x".toList := by
  refine ⟨by rfl, ?_⟩
  intro hcontained
  obtain ⟨rest, -, hparts, -⟩ := hcontained "bar/x".toList (by rfl)
  have hpath : parts "/data/foobar/x".toList =
      ["data".toList, "foobar".toList, "x".toList] := by rfl
  have hroot : parts "/data/foo".toList = ["data".toList, "foo".toList] := by rfl
  rw [hpath, hroot] at hparts
  have hsecond := (List.cons.inj (List.cons.inj hparts).2).1
  exact absurd hsecond (by decide)

end SideWire.RootContainment
