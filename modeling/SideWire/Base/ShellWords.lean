import Mathlib.Data.List.Forall2

/-!
How a POSIX shell splits a script into words: quoting with single quotes, double quotes and
backslashes, over any alphabet whose characters are classified. A script with a quote left
open, or with an operator or an expansion that is not quoted, has no words here.
-/

namespace SideWire.ShellWords

/-- What a character means to the shell where it is not quoted. -/
inductive Kind
  | singleQuote
  | doubleQuote
  | backslash
  | blank
  | newline
  /-- Starts an expansion, in double quotes as well. -/
  | expansion
  /-- Belongs to an operator, a pattern, a comment or the like. -/
  | special
  | plain
  deriving DecidableEq

inductive Quoting (α : Type*)
  | bare
  | escaped
  | single
  | double
  | doubleEscaped (backslash : α)
  deriving DecidableEq

/-- The words before, and the one under way. -/
structure Lexer (α : Type*) where
  quoting : Quoting α
  word : Option (List α)
  words : List (List α)
  deriving DecidableEq

namespace Lexer

variable {α : Type*}

def initial : Lexer α := ⟨.bare, none, []⟩

/-- The word under way goes on, or a new one begins. -/
def extend (s : Lexer α) (text : List α) : Lexer α :=
  { s with word := some (s.word.getD [] ++ text) }

def finish (s : Lexer α) : Lexer α :=
  match s.word with
  | none => s
  | some word => { s with word := none, words := s.words ++ [word] }

def step (kind : α → Kind) (s : Lexer α) (c : α) : Option (Lexer α) :=
  match s.quoting, kind c with
  | .bare, .singleQuote => some { s.extend [] with quoting := .single }
  | .bare, .doubleQuote => some { s.extend [] with quoting := .double }
  | .bare, .backslash => some { s with quoting := .escaped }
  | .bare, .blank => some s.finish
  | .bare, .newline => none
  | .bare, .expansion => none
  | .bare, .special => none
  | .bare, .plain => some (s.extend [c])
  -- a line that is continued
  | .escaped, .newline => some { s with quoting := .bare }
  | .escaped, _ => some { s.extend [c] with quoting := .bare }
  | .single, .singleQuote => some { s with quoting := .bare }
  | .single, _ => some (s.extend [c])
  | .double, .doubleQuote => some { s with quoting := .bare }
  | .double, .backslash => some { s with quoting := .doubleEscaped c }
  | .double, .expansion => none
  | .double, _ => some (s.extend [c])
  | .doubleEscaped _, .newline => some { s with quoting := .double }
  | .doubleEscaped _, .doubleQuote => some { s.extend [c] with quoting := .double }
  | .doubleEscaped _, .backslash => some { s.extend [c] with quoting := .double }
  | .doubleEscaped _, .expansion => some { s.extend [c] with quoting := .double }
  -- the backslash stays
  | .doubleEscaped b, _ => some { s.extend [b, c] with quoting := .double }

def run (kind : α → Kind) (s : Lexer α) : List α → Option (Lexer α)
  | [] => some s
  | c :: text => (s.step kind c).bind fun next => next.run kind text

@[simp] theorem extend_extend (s : Lexer α) (a b : List α) :
    (s.extend a).extend b = s.extend (a ++ b) := by
  simp [extend]

@[simp] theorem quoting_extend (s : Lexer α) (text : List α) :
    (s.extend text).quoting = s.quoting := rfl

theorem run_append (kind : α → Kind) (s : Lexer α) (a b : List α) :
    s.run kind (a ++ b) = (s.run kind a).bind fun next => next.run kind b := by
  induction a generalizing s with
  | nil => rfl
  | cons c a ih =>
      rw [List.cons_append, run, run, Option.bind_assoc]
      exact congrArg _ (funext fun next => ih next)

end Lexer

section Words

variable {α : Type*} {kind : α → Kind}

/-- The words of a script. -/
def splitWords (kind : α → Kind) (script : List α) : Option (List (List α)) :=
  match Lexer.initial.run kind script with
  | some ⟨.bare, word, words⟩ => some (words ++ word.toList)
  | _ => none

/-- Where nothing is quoted the text reads as part of a word. -/
def Reads (kind : α → Kind) (text value : List α) : Prop :=
  ∀ s : Lexer α, s.quoting = .bare → s.run kind text = some (s.extend value)

/-- Inside single quotes the text reads as the next part of a word. -/
def ReadsQuoted (kind : α → Kind) (text value : List α) : Prop :=
  ∀ (s : Lexer α) (before : List α), s.quoting = .single →
    (s.extend before).run kind text = some (s.extend (before ++ value))

theorem Reads.append {text text' value value' : List α} (h : Reads kind text value)
    (h' : Reads kind text' value') : Reads kind (text ++ text') (value ++ value') := by
  intro s hs
  rw [Lexer.run_append, h s hs, Option.bind_some, h' (s.extend value) hs,
    Lexer.extend_extend]

theorem reads_plain {c : α} (hc : kind c = .plain) : Reads kind [c] [c] := by
  intro s hs
  simp only [Lexer.run, Lexer.step, hs, hc, Option.bind_some]

theorem reads_plain_cons {c : α} {text : List α} (h : ∀ d ∈ c :: text, kind d = .plain) :
    Reads kind (c :: text) (c :: text) := by
  induction text generalizing c with
  | nil => exact reads_plain (h c List.mem_cons_self)
  | cons d text ih =>
      obtain ⟨hc, hrest⟩ := List.forall_mem_cons.mp h
      exact (reads_plain hc).append (ih hrest)

theorem reads_escaped {b c : α} (hb : kind b = .backslash) (hc : kind c ≠ .newline) :
    Reads kind [b, c] [c] := by
  intro s hs
  rcases s with ⟨quoting, word, words⟩
  obtain rfl : quoting = .bare := hs
  cases hkind : kind c <;> simp_all [Lexer.run, Lexer.step, Lexer.extend]

theorem reads_double_quoted {d d' : α} {text : List α} (hd : kind d = .doubleQuote)
    (hd' : kind d' = .doubleQuote)
    (htext : ∀ c ∈ text, kind c ≠ .doubleQuote ∧ kind c ≠ .backslash ∧ kind c ≠ .expansion) :
    Reads kind (d :: text ++ [d']) text := by
  have hinside : ∀ (s : Lexer α) (before : List α), s.quoting = .double →
      (s.extend before).run kind text = some (s.extend (before ++ text)) := by
    intro s
    induction text with
    | nil => simp [Lexer.run]
    | cons c text ih =>
        intro before hs
        obtain ⟨⟨hdouble, hbackslash, hexpansion⟩, hrest⟩ := List.forall_mem_cons.mp htext
        have hstep : (s.extend before).step kind c = some (s.extend (before ++ [c])) := by
          cases hkind : kind c <;>
            simp_all [Lexer.step]
        rw [Lexer.run, hstep, Option.bind_some, ih hrest _ hs, List.append_assoc]
        rfl
  intro s hs
  have hopen : s.step kind d = some (({ s with quoting := .double } : Lexer α).extend []) := by
    simp only [Lexer.step, hs, hd]
    rfl
  rw [List.cons_append, Lexer.run, hopen, Option.bind_some, Lexer.run_append,
    hinside _ _ rfl, Option.bind_some, List.nil_append]
  rcases s with ⟨quoting, word, words⟩
  obtain rfl : quoting = .bare := hs
  simp only [Lexer.run, Lexer.step, Lexer.quoting_extend, hd', Option.bind_some]
  rfl

theorem readsQuoted_nil : ReadsQuoted kind [] [] := by
  intro s before _
  rw [List.append_nil]
  rfl

theorem readsQuoted_char {c : α} (hc : kind c ≠ .singleQuote) : ReadsQuoted kind [c] [c] := by
  intro s before hs
  cases hkind : kind c <;> simp_all [Lexer.run, Lexer.step]

theorem ReadsQuoted.append {text text' value value' : List α} (h : ReadsQuoted kind text value)
    (h' : ReadsQuoted kind text' value') :
    ReadsQuoted kind (text ++ text') (value ++ value') := by
  intro s before hs
  rw [Lexer.run_append, h s before hs, Option.bind_some, h' s _ hs, List.append_assoc]

theorem Reads.readsQuoted {q q' : α} {text value : List α} (h : Reads kind text value)
    (hq : kind q = .singleQuote) (hq' : kind q' = .singleQuote) :
    ReadsQuoted kind (q :: text ++ [q']) value := by
  intro s before hs
  rcases s with ⟨quoting, word, words⟩
  obtain rfl : quoting = .single := hs
  have hclose : (Lexer.extend ⟨.single, word, words⟩ before).step kind q =
      some (Lexer.extend ⟨.bare, word, words⟩ before) := by
    simp only [Lexer.step, Lexer.quoting_extend, hq]
    rfl
  have hreopen : (Lexer.extend ⟨.bare, word, words⟩ (before ++ value)).run kind [q'] =
      some (Lexer.extend ⟨.single, word, words⟩ (before ++ value)) := by
    simp only [Lexer.run, Lexer.step, Lexer.quoting_extend, hq', Option.bind_some,
      Lexer.extend_extend, List.append_nil]
    rfl
  rw [List.cons_append, Lexer.run, hclose, Option.bind_some, Lexer.run_append, h _ rfl,
    Option.bind_some, Lexer.extend_extend, hreopen]

theorem ReadsQuoted.reads {q q' : α} {text value : List α} (h : ReadsQuoted kind text value)
    (hq : kind q = .singleQuote) (hq' : kind q' = .singleQuote) :
    Reads kind (q :: text ++ [q']) value := by
  intro s hs
  rcases s with ⟨quoting, word, words⟩
  obtain rfl : quoting = .bare := hs
  have hopen : (Lexer.mk .bare word words).step kind q =
      some (Lexer.extend ⟨.single, word, words⟩ []) := by
    simp only [Lexer.step, hq]
    rfl
  rw [List.cons_append, Lexer.run, hopen, Option.bind_some, Lexer.run_append, h _ _ rfl,
    Option.bind_some, List.nil_append]
  simp only [Lexer.run, Lexer.step, Lexer.quoting_extend, hq', Option.bind_some]
  rfl

theorem run_intercalate {blank : α} (hblank : kind blank = .blank) {texts values : List (List α)}
    (h : List.Forall₂ (Reads kind) texts values) (words : List (List α)) :
    ∃ word words', (Lexer.mk .bare none words).run kind ([blank].intercalate texts) =
        some ⟨.bare, word, words'⟩ ∧ words' ++ word.toList = words ++ values := by
  induction h generalizing words with
  | nil => exact ⟨none, words, rfl, rfl⟩
  | @cons text value texts values htext htexts ih =>
      have hfirst : (Lexer.mk .bare none words).run kind text =
          some ⟨.bare, some value, words⟩ := htext _ rfl
      cases texts with
      | nil =>
          obtain rfl := List.forall₂_nil_left_iff.mp htexts
          refine ⟨some value, words, ?_, rfl⟩
          rw [List.intercalate_singleton, hfirst]
      | cons text' texts =>
          obtain ⟨word, words', hrun, hwords⟩ := ih (words ++ [value])
          refine ⟨word, words', ?_, by rw [hwords, List.append_assoc, List.singleton_append]⟩
          have hgap : (Lexer.mk .bare (some value) words).step kind blank =
              some ⟨.bare, none, words ++ [value]⟩ := by
            simp only [Lexer.step, hblank]
            rfl
          rw [List.intercalate_cons_cons, List.append_assoc, Lexer.run_append, hfirst,
            Option.bind_some, List.singleton_append, Lexer.run, hgap, Option.bind_some, hrun]

/-- Texts with one blank between two of them are the words that they read as. -/
theorem splitWords_intercalate {blank : α} (hblank : kind blank = .blank)
    {texts values : List (List α)} (h : List.Forall₂ (Reads kind) texts values) :
    splitWords kind ([blank].intercalate texts) = some values := by
  obtain ⟨word, words, hrun, hwords⟩ := run_intercalate hblank h []
  rw [splitWords, Lexer.initial, hrun]
  exact congrArg some hwords

end Words

end SideWire.ShellWords
