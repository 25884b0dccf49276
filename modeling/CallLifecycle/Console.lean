/-
The console that log lines are shown on.

Nothing is shown until the console is set up, and setting it up again changes
nothing.  Then it shows the lines of this library from `debug` on; whose a line is
is told by its target, and every target that starts with the library's own counts.

A message is never shown in a way that could steer a terminal: the control
characters that do so are spelled out.
-/
import CallLifecycle.Note

namespace CallLifecycle

/-- A line for the log: how loud, from where, and what. -/
structure LogLine where
  level : Level
  target : String
  message : String
  deriving DecidableEq

/-- Where the log line of a defect says that it comes from. -/
def Defect.logTarget : String := "call_core::defects"

/-- The log line of a defect. -/
def Defect.logLine (d : Defect) : LogLine :=
  let note := Note.defect d
  ⟨note.level, Defect.logTarget, note.text⟩

/-- The order of loudness, from the quietest. -/
def Level.rank : Level → Nat
  | trace => 0
  | debug => 1
  | info => 2
  | warn => 3
  | error => 4

/-- Which lines are shown. -/
structure LogFilter where
  /-- What a target has to start with. -/
  target : String
  /-- The quietest level that is shown. -/
  level : Level

namespace LogFilter

/-- The library's own lines, from `debug` on. -/
def standard : LogFilter :=
  ⟨"call_core", .debug⟩

/-- Whether a line is shown. -/
def shows (filter : LogFilter) (line : LogLine) : Bool :=
  filter.target.toList.isPrefixOf line.target.toList && filter.level.rank ≤ line.level.rank

end LogFilter

namespace LogLine

/-- The control characters of seven bits that steer a terminal: bell, backspace, form feed, escape
and delete. -/
def steering : List Char :=
  ['\x07', '\x08', '\x0c', '\x1b', '\x7f']

/-- Two hexadecimal digits, which name every character below 256. -/
def hexPair (c : Char) : List Char :=
  [Nat.digitChar (c.toNat / 16), Nat.digitChar (c.toNat % 16)]

/-- A character of a message as it is shown: spelled out if it steers a terminal.

Of the control characters of seven bits a few do, and those of eight bits all do. -/
def shownChar (c : Char) : List Char :=
  if steering.contains c then '\\' :: 'x' :: hexPair c
  else if 0x80 ≤ c.toNat ∧ c.toNat < 0xa0 then '\\' :: 'u' :: '{' :: hexPair c ++ ['}']
  else [c]

/-- A line as it is shown: the level in five columns at the right, the target, and the message. -/
def text (line : LogLine) : String :=
  let level := line.level.label.toList
  String.ofList (List.replicate (5 - level.length) ' ' ++ level) ++ " " ++ line.target ++ ": " ++
    String.ofList (line.message.toList.flatMap shownChar)

end LogLine

/-- Where log lines are shown, once it is set up. -/
structure Console where
  filter : Option LogFilter := none

namespace Console

/-- Sets the console up, unless it is. -/
def setUp (console : Console) : Console :=
  { filter := console.filter <|> some .standard }

/-- What the console shows of some lines. -/
def shown (console : Console) (lines : List LogLine) : List String :=
  match console.filter with
  | none => []
  | some filter => (lines.filter filter.shows).map LogLine.text

theorem setUp_setUp (console : Console) : console.setUp.setUp = console.setUp := by
  cases h : console.filter <;> simp [setUp, h]

end Console

end CallLifecycle
