/-
What a JSON text is made of, and what can be wrong with one.

A text is a list of characters and is read from the left; the first thing that is
wrong decides.  There are three ways to be wrong.  The text may end too early, it
may be no JSON, or it may be JSON but not of the kind that is asked for.
-/

namespace CallLifecycle.Json

/-- What is wrong with a text. -/
inductive Fault
  /-- The text ends inside a value. -/
  | endOfText
  /-- The text is well formed so far, but says something else than is asked for. -/
  | wrongData
  /-- The text is not JSON, or goes on after the value. -/
  | malformed
  deriving DecidableEq

/-- The characters that may stand between tokens. -/
def isBlank (c : Char) : Bool :=
  c == ' ' || c == '\n' || c == '\t' || c == '\r'

/-- The text from its first character that is not blank. -/
def dropBlank (s : List Char) : List Char :=
  s.dropWhile isBlank

/-- Reads exactly the characters of a word. -/
def expectWord : List Char → List Char → Except Fault (List Char)
  | [], s => .ok s
  | _ :: _, [] => .error .endOfText
  | w :: word, c :: r => if c = w then expectWord word r else .error .malformed

/-- What follows the first letter of the three words that are values. -/
def wordAfter? : Char → Option (List Char)
  | 'n' => some ['u', 'l', 'l']
  | 't' => some ['r', 'u', 'e']
  | 'f' => some ['a', 'l', 's', 'e']
  | _ => none

/-- Reads a mark, which blanks may precede. -/
def expectMark (mark : Char) (s : List Char) : Except Fault (List Char) :=
  expectWord [mark] (dropBlank s)

/-! ### Nothing read is longer than it was -/

theorem length_dropBlank_le (s : List Char) : (dropBlank s).length ≤ s.length :=
  (List.dropWhile_suffix isBlank).length_le

theorem length_of_expectWord {word s r : List Char} (h : expectWord word s = .ok r) :
    word.length + r.length = s.length := by
  fun_induction expectWord word s with
  | case1 s => cases h; simp
  | case2 => cases h
  | case3 word c t ih => simp only [List.length_cons, ← ih h]; omega
  | case4 => cases h

theorem length_lt_of_expectMark {mark : Char} {s r : List Char} (h : expectMark mark s = .ok r) :
    r.length < s.length := by
  have h₁ := length_of_expectWord h
  have h₂ := length_dropBlank_le s
  simp only [List.length_cons, List.length_nil] at h₁
  omega

/-- What is left after something that starts with a character other than a blank. -/
theorem length_lt_of_dropBlank_eq_cons {s r : List Char} {c : Char} (h : dropBlank s = c :: r) :
    r.length < s.length := by
  have h₁ := length_dropBlank_le s
  rw [h, List.length_cons] at h₁
  exact h₁

/-- A reading that succeeds in two steps succeeds in each. -/
theorem bind_eq_ok {ε α β : Type} {x : Except ε α} {f : α → Except ε β} {b : β} :
    x >>= f = .ok b ↔ ∃ a, x = .ok a ∧ f a = .ok b := by
  cases x with
  | error e => simp [bind, Except.bind]
  | ok a => simp [bind, Except.bind]

end CallLifecycle.Json
