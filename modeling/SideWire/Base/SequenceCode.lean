import Mathlib.Data.List.Forall2

/-!
Codes in which the first symbol of a word tells how many symbols follow and what each of
them may be, and the decoding of a stream of such words that may be damaged and cut anywhere.
-/

namespace SideWire.SequenceCode

variable {β : Type}

/-- For each symbol that starts a word, the tests of the symbols after it. -/
structure Code (β : Type) where
  follow : β → Option (List (β → Bool))
  inhabited : ∀ {b tests}, follow b = some tests → ∀ test ∈ tests, ∃ x, test x = true

/-- What stands at the start of an input: a word, symbols that no word starts with, or the
start of a word that is still to be completed. -/
inductive Found
  | word (len : Nat)
  | bad (len : Nat)
  | short
  deriving DecidableEq

/-- Reads the symbols after the first one, `taken` of the word having been read. -/
def scanRest : List (β → Bool) → List β → Nat → Found
  | [], _, taken => .word taken
  | _ :: _, [], _ => .short
  | test :: tests, x :: input, taken =>
      if test x then scanRest tests input (taken + 1) else .bad taken

namespace Code

variable (code : Code β)

def scan : List β → Found
  | [] => .short
  | b :: input =>
      match code.follow b with
      | none => .bad 1
      | some tests => scanRest tests input 1

def Word (word : List β) : Prop :=
  ∃ b tests rest, word = b :: rest ∧ code.follow b = some tests ∧
    List.Forall₂ (fun test x => test x = true) tests rest

/-- A sequence of words. -/
def Valid (input : List β) : Prop := ∃ words : List (List β), (∀ word ∈ words, code.Word word) ∧
  input = words.flatten

/-- The start of a word, without all of it. -/
def Incomplete (input : List β) : Prop := ∃ more, more ≠ [] ∧ code.Word (input ++ more)

end Code

section Scan

variable {code : Code β} {tests : List (β → Bool)} {input more word : List β} {taken len : Nat}

theorem scanRest_append (h : scanRest tests input taken ≠ .short) (more : List β) :
    scanRest tests (input ++ more) taken = scanRest tests input taken := by
  induction tests generalizing input taken with
  | nil => rfl
  | cons test tests ih =>
      cases input with
      | nil => exact (h rfl).elim
      | cons x input =>
          rw [scanRest] at h
          rw [List.cons_append, scanRest, scanRest]
          split_ifs at h ⊢ with hx
          · exact ih h
          · rfl

theorem scan_append (h : code.scan input ≠ .short) (more : List β) :
    code.scan (input ++ more) = code.scan input := by
  cases input with
  | nil => exact (h rfl).elim
  | cons b input =>
      rw [List.cons_append, Code.scan, Code.scan]
      rw [Code.scan] at h
      split
      · rfl
      · rename_i hfollow
        rw [hfollow] at h
        exact scanRest_append h more

theorem scanRest_eq_word_iff :
    scanRest tests input taken = .word len ↔
      ∃ rest more, input = rest ++ more ∧
        List.Forall₂ (fun test x => test x = true) tests rest ∧ len = taken + rest.length := by
  induction tests generalizing input taken with
  | nil =>
      rw [scanRest, Found.word.injEq]
      constructor
      · rintro rfl
        exact ⟨[], input, rfl, .nil, rfl⟩
      · rintro ⟨rest, more, -, hrest, rfl⟩
        cases hrest
        rfl
  | cons test tests ih =>
      cases input with
      | nil =>
          constructor
          · intro h
            cases h
          · rintro ⟨rest, more, hinput, hrest, -⟩
            cases hrest
            cases hinput
      | cons x input =>
          rw [scanRest]
          split_ifs with hx
          · rw [ih]
            constructor
            · rintro ⟨rest, more, rfl, hrest, rfl⟩
              exact ⟨x :: rest, more, rfl, .cons hx hrest, by rw [List.length_cons]; omega⟩
            · rintro ⟨rest, more, hinput, hrest, rfl⟩
              cases hrest with
              | @cons _ y _ rest hy hrest =>
                  obtain ⟨rfl, rfl⟩ := List.cons.inj hinput
                  exact ⟨rest, more, rfl, hrest, by rw [List.length_cons]; omega⟩
          · constructor
            · intro h
              cases h
            · rintro ⟨rest, more, hinput, hrest, -⟩
              cases hrest with
              | cons hy _ =>
                  obtain ⟨rfl, -⟩ := List.cons.inj hinput
                  exact (hx hy).elim

theorem scanRest_eq_short_iff :
    scanRest tests input taken = .short ↔
      ∃ front back, tests = front ++ back ∧ back ≠ [] ∧
        List.Forall₂ (fun test x => test x = true) front input := by
  induction tests generalizing input taken with
  | nil =>
      constructor
      · intro h
        cases h
      · rintro ⟨front, back, hnil, hback, -⟩
        exact (hback (List.append_eq_nil_iff.mp hnil.symm).2).elim
  | cons test tests ih =>
      cases input with
      | nil => exact ⟨fun _ => ⟨[], test :: tests, rfl, nofun, .nil⟩, fun _ => rfl⟩
      | cons x input =>
          rw [scanRest]
          split_ifs with hx
          · rw [ih]
            constructor
            · rintro ⟨front, back, rfl, hback, hfront⟩
              exact ⟨test :: front, back, rfl, hback, .cons hx hfront⟩
            · rintro ⟨front, back, htests, hback, hfront⟩
              cases hfront with
              | cons _ hfront =>
                  obtain ⟨-, rfl⟩ := List.cons.inj htests
                  exact ⟨_, back, rfl, hback, hfront⟩
          · constructor
            · intro h
              cases h
            · rintro ⟨front, back, htests, -, hfront⟩
              cases hfront with
              | cons hy _ =>
                  obtain ⟨rfl, -⟩ := List.cons.inj htests
                  exact (hx hy).elim

theorem scanRest_bad (h : scanRest tests input taken = .bad len) :
    ∃ front test back rest x more, tests = front ++ test :: back ∧ input = rest ++ x :: more ∧
      List.Forall₂ (fun test x => test x = true) front rest ∧ test x = false ∧
      len = taken + rest.length := by
  induction tests generalizing input taken with
  | nil => cases h
  | cons test tests ih =>
      cases input with
      | nil => cases h
      | cons x input =>
          rw [scanRest] at h
          split_ifs at h with hx
          · obtain ⟨front, test', back, rest, y, more, rfl, rfl, hfront, hy, rfl⟩ := ih h
            exact ⟨test :: front, test', back, x :: rest, y, more, rfl, rfl, .cons hx hfront, hy,
              by rw [List.length_cons]; omega⟩
          · obtain rfl := Found.bad.inj h
            exact ⟨[], test, tests, [], x, input, rfl, rfl, .nil, by simpa using hx, rfl⟩

theorem scanRest_of_bad {front back : List (β → Bool)} {test : β → Bool} {rest : List β} {x : β}
    (hfront : List.Forall₂ (fun test x => test x = true) front rest) (hx : test x = false)
    (more : List β) (taken : Nat) :
    scanRest (front ++ test :: back) (rest ++ x :: more) taken = .bad (taken + rest.length) := by
  induction hfront generalizing taken with
  | nil => simp [scanRest, hx]
  | cons hy _ ih =>
      rw [List.cons_append, List.cons_append, scanRest, if_pos hy, ih, List.length_cons]
      congr 1
      omega

theorem forall₂_of_append {xs ys : List β}
    (h : List.Forall₂ (fun test x => test x = true) tests (xs ++ ys)) :
    ∃ front back, tests = front ++ back ∧
      List.Forall₂ (fun test x => test x = true) front xs ∧
      List.Forall₂ (fun test x => test x = true) back ys := by
  induction xs generalizing tests with
  | nil => exact ⟨[], tests, rfl, .nil, h⟩
  | cons x xs ih =>
      rw [List.cons_append] at h
      cases h with
      | cons hx hrest =>
          obtain ⟨front, back, rfl, hfront, hback⟩ := ih hrest
          exact ⟨_ :: front, back, rfl, .cons hx hfront, hback⟩

theorem scan_eq_word_iff :
    code.scan input = .word len ↔
      ∃ word more, input = word ++ more ∧ code.Word word ∧ len = word.length := by
  cases input with
  | nil =>
      constructor
      · intro h
        cases h
      · rintro ⟨word, more, hinput, ⟨b, tests, rest, rfl, -, -⟩, -⟩
        cases hinput
  | cons b input =>
      rw [Code.scan]
      constructor
      · intro h
        split at h
        · cases h
        · rename_i tests hfollow
          obtain ⟨rest, more, rfl, hrest, rfl⟩ := scanRest_eq_word_iff.mp h
          exact ⟨b :: rest, more, rfl, ⟨b, tests, rest, rfl, hfollow, hrest⟩,
            by rw [List.length_cons, Nat.add_comm]⟩
      · rintro ⟨word, more, hinput, ⟨b', tests, rest, rfl, hfollow, hrest⟩, rfl⟩
        obtain ⟨rfl, rfl⟩ := List.cons.inj hinput
        rw [hfollow]
        exact scanRest_eq_word_iff.mpr ⟨rest, more, rfl, hrest,
          by rw [List.length_cons, Nat.add_comm]⟩

theorem exists_forall₂ (h : ∀ test ∈ tests, ∃ x, test x = true) :
    ∃ rest : List β, List.Forall₂ (fun test x => test x = true) tests rest := by
  induction tests with
  | nil => exact ⟨[], .nil⟩
  | cons test tests ih =>
      obtain ⟨x, hx⟩ := h test List.mem_cons_self
      obtain ⟨rest, hrest⟩ := ih fun t ht => h t (List.mem_cons_of_mem _ ht)
      exact ⟨x :: rest, .cons hx hrest⟩

theorem scan_eq_short_iff (hinput : input ≠ []) :
    code.scan input = .short ↔ code.Incomplete input := by
  obtain ⟨b, input, rfl⟩ := List.exists_cons_of_ne_nil hinput
  rw [Code.scan]
  constructor
  · intro h
    split at h
    · cases h
    · rename_i hfollow
      obtain ⟨front, back, rfl, hback, hfront⟩ := scanRest_eq_short_iff.mp h
      obtain ⟨more, hmore⟩ := exists_forall₂ fun test htest =>
        code.inhabited hfollow test (List.mem_append_right front htest)
      refine ⟨more, ?_, b, front ++ back, input ++ more, rfl, hfollow,
        List.rel_append hfront hmore⟩
      rintro rfl
      cases hmore
      exact hback rfl
  · rintro ⟨more, hmore, b', tests, rest, hword, hfollow, hrest⟩
    obtain ⟨rfl, rfl⟩ := List.cons.inj hword
    rw [hfollow]
    obtain ⟨front, back, rfl, hfront, hback⟩ := forall₂_of_append hrest
    refine scanRest_eq_short_iff.mpr ⟨front, back, rfl, ?_, hfront⟩
    rintro rfl
    cases hback
    exact hmore rfl

/-- Symbols that no word starts with: as many as a word may start with, or a single one. -/
theorem scan_bad (h : code.scan input = .bad len) :
    0 < len ∧ len ≤ input.length ∧ (len = 1 ∨ code.Incomplete (input.take len)) ∧
      ∀ more, ¬ code.Word (input.take (len + 1) ++ more) := by
  cases input with
  | nil => cases h
  | cons b input =>
      rw [Code.scan] at h
      split at h
      · rename_i hfollow
        obtain rfl := Found.bad.inj h
        refine ⟨Nat.one_pos, by simp, .inl rfl, ?_⟩
        rintro more ⟨b', tests, rest, hword, hfollow', -⟩
        obtain ⟨rfl, -⟩ := List.cons.inj hword
        rw [hfollow] at hfollow'
        cases hfollow'
      · rename_i hfollow
        obtain ⟨front, test, back, rest, x, more, rfl, rfl, hfront, hx, rfl⟩ := scanRest_bad h
        have hlen : 1 + rest.length = (b :: rest).length := by
          rw [List.length_cons, Nat.add_comm]
        have htake : (b :: (rest ++ x :: more)).take (1 + rest.length) = b :: rest := by
          rw [hlen, ← List.cons_append, List.take_left]
        have htake' : (b :: (rest ++ x :: more)).take (1 + rest.length + 1) =
            b :: (rest ++ [x]) := by
          have hsplit : b :: (rest ++ x :: more) = (b :: (rest ++ [x])) ++ more := by simp
          have hlen' : 1 + rest.length + 1 = (b :: (rest ++ [x])).length := by
            simp only [List.length_cons, List.length_append, List.length_nil]
            omega
          rw [hsplit, hlen', List.take_left]
        refine ⟨by omega, by simp; omega, .inr ?_, ?_⟩
        · rw [htake]
          have hshort : code.scan (b :: rest) = .short := by
            rw [Code.scan, hfollow]
            exact scanRest_eq_short_iff.mpr ⟨front, test :: back, rfl, nofun, hfront⟩
          exact (scan_eq_short_iff (List.cons_ne_nil b rest)).mp hshort
        · rw [htake']
          intro after hword
          have hscan := scan_eq_word_iff.mpr ⟨_, [], (List.append_nil _).symm, hword, rfl⟩
          rw [List.cons_append, List.append_assoc, Code.scan, hfollow] at hscan
          have hbad : scanRest (front ++ test :: back) (rest ++ x :: after) 1 = _ :=
            scanRest_of_bad hfront hx after 1
          exact nomatch hbad.symm.trans hscan

theorem length_drop_lt (h : code.scan input = .word len ∨ code.scan input = .bad len) :
    (input.drop len).length < input.length := by
  rcases h with h | h
  · obtain ⟨word, more, rfl, ⟨b, tests, rest, rfl, -, -⟩, rfl⟩ := scan_eq_word_iff.mp h
    rw [List.drop_left]
    simp only [List.length_append, List.length_cons]
    omega
  · obtain ⟨hpos, hle, -⟩ := scan_bad h
    rw [List.length_drop]
    omega

theorem le_length_of_scan (h : code.scan input = .word len ∨ code.scan input = .bad len) :
    len ≤ input.length := by
  rcases h with h | h
  · obtain ⟨word, more, rfl, -, rfl⟩ := scan_eq_word_iff.mp h
    simp
  · exact (scan_bad h).2.1

end Scan

namespace Code

variable (code : Code β)

/-- Induction along what is found in an input. -/
@[elab_as_elim] theorem scan_induction {motive : List β → Prop}
    (word : ∀ input len, code.scan input = .word len → motive (input.drop len) → motive input)
    (bad : ∀ input len, code.scan input = .bad len → motive (input.drop len) → motive input)
    (short : ∀ input, code.scan input = .short → motive input) (input : List β) :
    motive input :=
  match h : code.scan input with
  | .word len => word input len h (scan_induction word bad short (input.drop len))
  | .bad len => bad input len h (scan_induction word bad short (input.drop len))
  | .short => short input h
termination_by input.length
decreasing_by
  · exact length_drop_lt (.inl h)
  · exact length_drop_lt (.inr h)

/-- The length of the words at the start of an input. -/
def leading (input : List β) : Nat :=
  match _h : code.scan input with
  | .word len => len + leading (input.drop len)
  | _ => 0
termination_by input.length
decreasing_by exact length_drop_lt (.inl _h)

/-- Decodes what is decided, with `mark` for what no word starts with. Returns this and the
start of a word that is left. -/
def settle (mark : List β) (input : List β) : List β × List β :=
  match _h : code.scan input with
  | .word len =>
      let (output, pending) := settle mark (input.drop len)
      (input.take len ++ output, pending)
  | .bad len =>
      let (output, pending) := settle mark (input.drop len)
      (mark ++ output, pending)
  | .short => ([], input)
termination_by input.length
decreasing_by
  · exact length_drop_lt (.inl _h)
  · exact length_drop_lt (.inr _h)

/-- Decodes an input that ends here: a word that has only been started is marked too. -/
def lossy (mark : List β) (input : List β) : List β :=
  match _h : code.scan input with
  | .word len => input.take len ++ lossy mark (input.drop len)
  | .bad len => mark ++ lossy mark (input.drop len)
  | .short => if input.isEmpty then [] else mark
termination_by input.length
decreasing_by
  · exact length_drop_lt (.inl _h)
  · exact length_drop_lt (.inr _h)

end Code

section Decoding

variable {code : Code β} {mark input more : List β} {len : Nat}

theorem leading_of_word (h : code.scan input = .word len) :
    code.leading input = len + code.leading (input.drop len) := by
  rw [Code.leading]
  split <;> simp_all

theorem leading_of_not_word (h : ∀ len, code.scan input ≠ .word len) :
    code.leading input = 0 := by
  rw [Code.leading]
  split <;> simp_all

theorem settle_of_word (h : code.scan input = .word len) :
    code.settle mark input =
      (input.take len ++ (code.settle mark (input.drop len)).1,
        (code.settle mark (input.drop len)).2) := by
  rw [Code.settle]
  split <;> simp_all

theorem settle_of_bad (h : code.scan input = .bad len) :
    code.settle mark input =
      (mark ++ (code.settle mark (input.drop len)).1,
        (code.settle mark (input.drop len)).2) := by
  rw [Code.settle]
  split <;> simp_all

theorem settle_of_short (h : code.scan input = .short) :
    code.settle mark input = ([], input) := by
  rw [Code.settle]
  split <;> simp_all

theorem lossy_of_word (h : code.scan input = .word len) :
    code.lossy mark input = input.take len ++ code.lossy mark (input.drop len) := by
  rw [Code.lossy]
  split <;> simp_all

theorem lossy_of_bad (h : code.scan input = .bad len) :
    code.lossy mark input = mark ++ code.lossy mark (input.drop len) := by
  rw [Code.lossy]
  split <;> simp_all

theorem lossy_of_short (h : code.scan input = .short) :
    code.lossy mark input = if input.isEmpty then [] else mark := by
  rw [Code.lossy]
  split <;> simp_all

theorem lossy_append_of_word {word : List β} (h : code.Word word) (mark more : List β) :
    code.lossy mark (word ++ more) = word ++ code.lossy mark more := by
  have hscan : code.scan (word ++ more) = .word word.length :=
    scan_eq_word_iff.mpr ⟨word, more, rfl, h, rfl⟩
  rw [lossy_of_word hscan, List.take_left, List.drop_left]

theorem lossy_of_incomplete (hinput : input ≠ []) (h : code.Incomplete input) (mark : List β) :
    code.lossy mark input = mark := by
  rw [lossy_of_short ((scan_eq_short_iff hinput).mpr h), if_neg (by simpa using hinput)]

theorem scan_settle (mark input : List β) :
    code.scan (code.settle mark input).2 = .short := by
  induction input using code.scan_induction with
  | word input len hscan ih =>
      rw [settle_of_word hscan]
      exact ih
  | bad input len hscan ih =>
      rw [settle_of_bad hscan]
      exact ih
  | short input hscan => rwa [settle_of_short hscan]

/-- Decoding an input is decoding its first part, then what that leaves with the rest. -/
theorem settle_append (mark input more : List β) :
    code.settle mark (input ++ more) =
      ((code.settle mark input).1 ++
          (code.settle mark ((code.settle mark input).2 ++ more)).1,
        (code.settle mark ((code.settle mark input).2 ++ more)).2) := by
  induction input using code.scan_induction with
  | word input len hscan ih =>
      have hle := le_length_of_scan (.inl hscan)
      have happend : code.scan (input ++ more) = .word len := by
        rw [scan_append (by rw [hscan]; nofun), hscan]
      rw [settle_of_word happend, settle_of_word hscan, List.take_append_of_le_length hle,
        List.drop_append_of_le_length hle, ih, List.append_assoc]
  | bad input len hscan ih =>
      have hle := le_length_of_scan (.inr hscan)
      have happend : code.scan (input ++ more) = .bad len := by
        rw [scan_append (by rw [hscan]; nofun), hscan]
      rw [settle_of_bad happend, settle_of_bad hscan, List.drop_append_of_le_length hle,
        ih, List.append_assoc]
  | short input hscan =>
      rw [settle_of_short hscan]
      simp

theorem lossy_eq_settle (code : Code β) (mark input : List β) :
    code.lossy mark input = (code.settle mark input).1 ++
      if (code.settle mark input).2.isEmpty then [] else mark := by
  induction input using code.scan_induction with
  | word input len hscan ih =>
      rw [lossy_of_word hscan, settle_of_word hscan, ih, List.append_assoc]
  | bad input len hscan ih =>
      rw [lossy_of_bad hscan, settle_of_bad hscan, ih, List.append_assoc]
  | short input hscan => rw [lossy_of_short hscan, settle_of_short hscan, List.nil_append]

theorem leading_le_length (code : Code β) (input : List β) :
    code.leading input ≤ input.length := by
  induction input using code.scan_induction with
  | word input len hscan ih =>
      have hle := le_length_of_scan (.inl hscan)
      rw [leading_of_word hscan]
      rw [List.length_drop] at ih
      omega
  | bad input len hscan _ | short input hscan =>
      rw [leading_of_not_word (by simp [hscan])]
      omega

theorem settle_leading (mark input : List β) :
    code.settle mark input =
      (input.take (code.leading input) ++
          (code.settle mark (input.drop (code.leading input))).1,
        (code.settle mark (input.drop (code.leading input))).2) := by
  induction input using code.scan_induction with
  | word input len hscan ih =>
      rw [settle_of_word hscan, leading_of_word hscan, ih, List.drop_drop, List.take_add,
        List.append_assoc]
  | bad input len hscan _ | short input hscan =>
      rw [leading_of_not_word (by simp [hscan])]
      simp

theorem scan_drop_leading (code : Code β) (input : List β) (len : Nat) :
    code.scan (input.drop (code.leading input)) ≠ .word len := by
  induction input using code.scan_induction with
  | word input len' hscan ih =>
      rw [leading_of_word hscan, ← List.drop_drop]
      exact ih
  | bad input len' hscan _ | short input hscan =>
      rw [leading_of_not_word (by simp [hscan]), List.drop_zero, hscan]
      nofun

theorem Code.Valid.nil : code.Valid [] := ⟨[], by simp, rfl⟩

theorem Code.Valid.cons {word rest : List β} (hword : code.Word word) (hrest : code.Valid rest) :
    code.Valid (word ++ rest) := by
  obtain ⟨words, hwords, rfl⟩ := hrest
  exact ⟨word :: words, List.forall_mem_cons.mpr ⟨hword, hwords⟩, rfl⟩

theorem Code.Valid.append {front rest : List β} (hfront : code.Valid front)
    (hrest : code.Valid rest) : code.Valid (front ++ rest) := by
  obtain ⟨words, hwords, rfl⟩ := hfront
  obtain ⟨more, hmore, rfl⟩ := hrest
  exact ⟨words ++ more, List.forall_mem_append.mpr ⟨hwords, hmore⟩, List.flatten_append.symm⟩

theorem valid_lossy (hmark : code.Valid mark) (input : List β) :
    code.Valid (code.lossy mark input) := by
  induction input using code.scan_induction with
  | word input len hscan ih =>
      obtain ⟨word, more, rfl, hword, rfl⟩ := scan_eq_word_iff.mp hscan
      rw [lossy_of_word hscan]
      rw [List.take_left]
      exact .cons hword ih
  | bad input len hscan ih =>
      rw [lossy_of_bad hscan]
      exact hmark.append ih
  | short input hscan =>
      rw [lossy_of_short hscan]
      split_ifs
      · exact .nil
      · exact hmark

theorem valid_take_leading (code : Code β) (input : List β) :
    code.Valid (input.take (code.leading input)) := by
  induction input using code.scan_induction with
  | word input len hscan ih =>
      obtain ⟨word, more, rfl, hword, rfl⟩ := scan_eq_word_iff.mp hscan
      rw [leading_of_word hscan, List.take_add, List.take_left]
      exact .cons hword ih
  | bad input len hscan _ | short input hscan =>
      rw [leading_of_not_word (by simp [hscan])]
      exact .nil

theorem length_le_leading {front : List β} (h : code.Valid front) (more : List β) :
    front.length ≤ code.leading (front ++ more) := by
  obtain ⟨words, hwords, rfl⟩ := h
  induction words with
  | nil => exact Nat.zero_le _
  | cons word words ih =>
      obtain ⟨hword, hwords⟩ := List.forall_mem_cons.mp hwords
      have hscan : code.scan ((word :: words).flatten ++ more) = .word word.length :=
        scan_eq_word_iff.mpr ⟨word, words.flatten ++ more, by simp, hword, rfl⟩
      have hdrop : ((word :: words).flatten ++ more).drop word.length =
          words.flatten ++ more := by
        rw [List.flatten_cons, List.append_assoc, List.drop_left]
      have hrest := ih hwords
      rw [leading_of_word hscan, hdrop, List.flatten_cons, List.length_append]
      omega

theorem valid_iff_leading : code.Valid input ↔ code.leading input = input.length := by
  constructor
  · intro h
    have hle := length_le_leading h []
    rw [List.append_nil] at hle
    exact Nat.le_antisymm (leading_le_length code input) hle
  · intro h
    have hvalid := valid_take_leading code input
    rwa [h, List.take_length] at hvalid

end Decoding

end SideWire.SequenceCode
