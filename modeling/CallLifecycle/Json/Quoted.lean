/-
Strings between quotes.

Writing escapes as little as it may: the quote, the backslash and the control
characters.  Reading takes every escape, and a character beyond the first 65536
may be escaped as a pair of surrogates.  It takes a lone surrogate only where the
string is passed over and not kept, since no character is meant by one.
-/
import CallLifecycle.Identifier
import CallLifecycle.Json.Token

namespace CallLifecycle.Json

/-! ### Writing -/

/-- A character as it stands between quotes. -/
def escaped (c : Char) : List Char :=
  match c with
  | '"' => ['\\', '"']
  | '\\' => ['\\', '\\']
  | '\x08' => ['\\', 'b']
  | '\x0c' => ['\\', 'f']
  | '\n' => ['\\', 'n']
  | '\r' => ['\\', 'r']
  | '\t' => ['\\', 't']
  | c =>
    if c.toNat < 0x20 then
      ['\\', 'u', '0', '0', Nat.digitChar (c.toNat / 16), Nat.digitChar (c.toNat % 16)]
    else [c]

/-- A string between quotes. -/
def quoted (cs : List Char) : List Char :=
  '"' :: cs.flatMap escaped ++ ['"']

/-! ### Reading -/

/-- What a letter after a backslash stands for. -/
def simpleEscape? : Char → Option Char
  | '"' => some '"'
  | '\\' => some '\\'
  | '/' => some '/'
  | 'b' => some '\x08'
  | 'f' => some '\x0c'
  | 'n' => some '\n'
  | 'r' => some '\r'
  | 't' => some '\t'
  | _ => none

/-- Reads a code unit of four hexadecimal digits.

The text ends too early when fewer than four bytes are left of it, whatever they are. -/
def readUnit (s : List Char) : Except Fault (Nat × List Char) :=
  if (s.take 4).foldl (fun size c => size + c.utf8Size) 0 < 4 then .error .endOfText
  else
    match (s.take 4).mapM hexDigit? with
    | some digits => .ok (digits.foldl (fun n d => 16 * n + d.val) 0, s.drop 4)
    | none => .error .malformed

/-- What can stand inside a string. -/
inductive Piece
  /-- The closing quote. -/
  | close
  | char (c : Char)
  /-- An escaped code unit, which may be half of a character. -/
  | unit (n : Nat)

/-- Reads the next piece of a string. -/
def readPiece : List Char → Except Fault (Piece × List Char)
  | [] => .error .endOfText
  | '"' :: r => .ok (.close, r)
  | ['\\'] => .error .endOfText
  | '\\' :: 'u' :: r => do
    let (n, r) ← readUnit r
    return (.unit n, r)
  | '\\' :: c :: r =>
    match simpleEscape? c with
    | some c => .ok (.char c, r)
    | none => .error .malformed
  | c :: r => if c.toNat < 0x20 then .error .malformed else .ok (.char c, r)

/-- Whether a code unit is the first half of a character. -/
def isLeading (n : Nat) : Bool :=
  0xD800 ≤ n && n ≤ 0xDBFF

/-- Whether a code unit is the second half of a character. -/
def isTrailing (n : Nat) : Bool :=
  0xDC00 ≤ n && n ≤ 0xDFFF

/-- Reads the second half of a character. -/
def readTrailing (leading : Nat) (s : List Char) : Except Fault (Char × List Char) := do
  let r ← expectWord ['\\', 'u'] s
  let (n, r) ← readUnit r
  if isTrailing n then
    return (Char.ofNat (0x10000 + 0x400 * (leading - 0xD800) + (n - 0xDC00)), r)
  else
    throw .malformed

/-- Reads the next character of a string, or nothing where it closes. -/
def readChar? (s : List Char) : Except Fault (Option Char × List Char) := do
  match ← readPiece s with
  | (.close, r) => return (none, r)
  | (.char c, r) => return (some c, r)
  | (.unit n, r) =>
    if isTrailing n then
      throw .malformed
    else if isLeading n then
      let (c, r) ← readTrailing n r
      return (some c, r)
    else
      return (some (Char.ofNat n), r)

/-! ### Every piece takes at least one character -/

theorem length_lt_of_readUnit {s r : List Char} {n : Nat} (h : readUnit s = .ok (n, r)) :
    r.length < s.length := by
  unfold readUnit at h
  split at h
  · cases h
  · next hsum =>
    split at h
    · cases h
      cases s with
      | nil => simp at hsum
      | cons c t => simp only [List.length_drop, List.length_cons]; omega
    · cases h

theorem length_lt_of_readPiece {s r : List Char} {p : Piece} (h : readPiece s = .ok (p, r)) :
    r.length < s.length := by
  unfold readPiece at h
  split at h
  · cases h
  · cases h; simp
  · cases h
  · obtain ⟨⟨n, t⟩, h₁, h₂⟩ := bind_eq_ok.1 h
    cases h₂
    have := length_lt_of_readUnit h₁
    simp only [List.length_cons]
    omega
  · split at h
    · cases h; simp only [List.length_cons]; omega
    · cases h
  · split at h
    · cases h
    · cases h; simp

theorem length_lt_of_readTrailing {leading : Nat} {s r : List Char} {c : Char}
    (h : readTrailing leading s = .ok (c, r)) : r.length < s.length := by
  obtain ⟨t, h₁, h⟩ := bind_eq_ok.1 h
  obtain ⟨⟨n, u⟩, h₂, h⟩ := bind_eq_ok.1 h
  have hlt₁ := length_of_expectWord h₁
  have hlt₂ := length_lt_of_readUnit h₂
  simp only at h
  split at h
  · obtain ⟨-, rfl⟩ := Prod.mk.inj (Except.ok.inj h)
    simp only [List.length_cons, List.length_nil] at hlt₁
    omega
  · cases h

theorem length_lt_of_readChar? {s r : List Char} {c : Option Char}
    (h : readChar? s = .ok (c, r)) : r.length < s.length := by
  obtain ⟨⟨p, t⟩, h₁, h⟩ := bind_eq_ok.1 h
  have hlt := length_lt_of_readPiece h₁
  cases p with
  | close => cases h; exact hlt
  | char c => cases h; exact hlt
  | unit n =>
    simp only at h
    split at h
    · cases h
    · split at h
      · obtain ⟨⟨c, u⟩, h₂, h⟩ := bind_eq_ok.1 h
        cases h
        exact Nat.lt_trans (length_lt_of_readTrailing h₂) hlt
      · cases h; exact hlt

/-! ### Whole strings -/

/-- Reads a string from behind its opening quote. -/
def readString (s : List Char) : Except Fault (List Char × List Char) :=
  match h : readChar? s with
  | .error f => .error f
  | .ok (none, r) => .ok ([], r)
  | .ok (some c, r) =>
    have := length_lt_of_readChar? h
    match readString r with
    | .error f => .error f
    | .ok (cs, r) => .ok (c :: cs, r)
termination_by s.length

/-- Passes over a string from behind its opening quote. -/
def skipString (s : List Char) : Except Fault (List Char) :=
  match h : readPiece s with
  | .error f => .error f
  | .ok (.close, r) => .ok r
  | .ok (_, r) =>
    have := length_lt_of_readPiece h
    skipString r
termination_by s.length

theorem length_lt_of_readString {s r cs : List Char} (h : readString s = .ok (cs, r)) :
    r.length < s.length := by
  fun_induction readString s generalizing cs r with
  | case1 => cases h
  | case2 s t hs => cases h; exact length_lt_of_readChar? hs
  | case3 => cases h
  | case4 s c t hs hlt ds u hu ih => cases h; exact Nat.lt_trans (ih hu) hlt

theorem length_lt_of_skipString {s r : List Char} (h : skipString s = .ok r) :
    r.length < s.length := by
  fun_induction skipString s generalizing r with
  | case1 => cases h
  | case2 s t hs => cases h; exact length_lt_of_readPiece hs
  | case3 s p t hs hp hlt ih => exact Nat.lt_trans (ih h) hlt

end CallLifecycle.Json
