/-
Closed sets of words.

Most of what is said about a call is one of a few words: its phase, its
direction, the media it offers.  Each such set is a type with two spellings per
value: the *name* it is written and read as, and the *label* it is shown as in
diagnostics.

`Vocabulary` asks for one law, that looking a value's name up gives the value
back.  It says two things at once: the list of values misses none, and no two
values share a name.
-/

namespace CallLifecycle

/-- The word for a yes or a no. -/
def flagWord : Bool → String
  | true => "true"
  | false => "false"

/-- A type of finitely many values, each with a name and a label. -/
class Vocabulary (α : Type) where
  /-- Every value once, in order. -/
  all : List α
  /-- The word a value is written and read as. -/
  name : α → String
  /-- The word a value is shown as in diagnostics. -/
  label : α → String
  /-- Looking a name up gives back the value it names. -/
  find_name : ∀ a, all.find? (fun b => name b == name a) = some a

namespace Vocabulary

variable {α : Type} [Vocabulary α]

/-- The value that a word names, if it names one. -/
def ofName? (word : String) : Option α :=
  (all : List α).find? fun a => name a == word

@[simp] theorem ofName?_name (a : α) : ofName? (name a) = some a :=
  find_name a

theorem name_of_ofName? {word : String} {a : α} (h : ofName? word = some a) : name a = word := by
  simpa using List.find?_some h

theorem ofName?_eq_some_iff {word : String} {a : α} : ofName? word = some a ↔ name a = word :=
  ⟨name_of_ofName?, fun h => h ▸ ofName?_name a⟩

theorem mem_all (a : α) : a ∈ (all : List α) :=
  List.mem_of_find?_eq_some (find_name a)

theorem name_injective {a b : α} (h : name a = name b) : a = b := by
  have := ofName?_name b
  rw [← h, ofName?_name] at this
  exact Option.some.inj this

end Vocabulary

end CallLifecycle
