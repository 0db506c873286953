/-!
# What a terminal shows

A terminal takes some characters of a text as commands: the control characters, and the sequences
that begin with the escape character. What it shows is the rest, with the line ends and tabs among
it. A text of characters that can be seen is shown as it is: `visible_eq_self`.
-/

namespace NodeCoverage
namespace Text
namespace Terminal

/-- What the characters just read belong to. -/
inductive Mode where
  | plain
  /-- Just behind the escape character. -/
  | escape
  /-- Inside an escape sequence of more than two characters. -/
  | intermediate
  /-- Inside a control sequence. -/
  | control
  /-- At the beginning of a command to the device. -/
  | device
  /-- Inside the numbers of a command to the device. -/
  | deviceNumbers
  /-- Behind the numbers of a command to the device. -/
  | deviceIntermediate
  /-- Inside a text that is kept from display, such as that of a command to the device. -/
  | hidden
  /-- Inside a command to the system, which may end with a bell. -/
  | system
deriving DecidableEq

/-- The character moves on to another place or line. -/
def isSpacing (c : Char) : Bool :=
  c = '\t' || c = '\n' || c = '\x0c' || c = '\r'

/-- The character is no part of a command when it stands alone. -/
def isVisible (c : Char) : Bool :=
  isSpacing c || (0x20 ≤ c.toNat && c.toNat ≠ 0x7F)

/-- The mode behind the second character of an escape sequence. -/
def afterEscape (c : Char) : Mode :=
  if c = '[' then .control
  else if c = ']' then .system
  else if c = 'P' then .device
  else if c = 'X' ∨ c = '^' ∨ c = '_' then .hidden
  else if ' ' ≤ c ∧ c ≤ '/' then .intermediate
  else if '0' ≤ c ∧ c ≤ '~' then .plain
  else .escape

/-- The mode behind a character of a command to the device, up to the one that begins its text. -/
def inDevice (m : Mode) (c : Char) : Mode :=
  if ' ' ≤ c ∧ c ≤ '/' then .deviceIntermediate
  else if '0' ≤ c ∧ c ≤ ';' then if m = .deviceIntermediate then .hidden else .deviceNumbers
  else if '<' ≤ c ∧ c ≤ '?' then if m = .device then .deviceNumbers else .hidden
  else if '@' ≤ c ∧ c ≤ '~' then .hidden
  else m

/-- A byte of the character closes a hidden text. -/
def closesHidden (c : Char) : Bool :=
  (String.utf8EncodeChar c).contains 0x9C

/-- What one more character of a sequence makes of the mode, if no space cuts it short. Characters
beyond ASCII belong to the sequence and lead nowhere, but for those that close a hidden text. -/
def inSequence (m : Mode) (c : Char) : Mode :=
  match m with
  | .plain => .plain
  | .escape => afterEscape c
  | .intermediate => if '0' ≤ c ∧ c ≤ '~' then .plain else .intermediate
  | .control => if '@' ≤ c ∧ c ≤ '~' then .plain else .control
  | .device | .deviceNumbers | .deviceIntermediate => inDevice m c
  | .hidden => if closesHidden c then .plain else .hidden
  | .system => if c = '\x07' then .plain else .system

/-- A space in a sequence of this mode cuts it short. -/
def Mode.isCutBySpace (m : Mode) : Bool :=
  m = .escape || m = .intermediate || m = .control

def step (m : Mode) (c : Char) : Mode × List Char :=
  if c = '\x1b' then (.escape, [])
  else if c = '\x18' ∨ c = '\x1a' then (.plain, [])
  else if m = .plain then (.plain, if isVisible c then [c] else [])
  else if isSpacing c ∧ m.isCutBySpace then (.plain, [c])
  else (inSequence m c, [])

/-- What is shown of a text that begins in the given mode. -/
def visible (m : Mode) : List Char → List Char
  | [] => []
  | c :: s =>
    let (next, shown) := step m c
    shown ++ visible next s

theorem visible_eq_self {s : List Char} (h : ∀ c ∈ s, isVisible c = true) :
    visible .plain s = s := by
  induction s with
  | nil => rfl
  | cons c s ih =>
    have hc := h c (by simp)
    have hs := ih fun d hd => h d (by simp [hd])
    have h₁ : c ≠ '\x1b' := fun e => absurd hc (by subst e; decide)
    have h₂ : c ≠ '\x18' := fun e => absurd hc (by subst e; decide)
    have h₃ : c ≠ '\x1a' := fun e => absurd hc (by subst e; decide)
    simp [visible, step, h₁, h₂, h₃, hc, hs]

end Terminal

def shown (s : String) : String :=
  String.ofList (Terminal.visible .plain s.toList)

end Text
end NodeCoverage
