import NodeCoverage.Json.Basic
import NodeCoverage.Json.Numeral
import NodeCoverage.Text.Hexadecimal
/-!
# The tokens of a JSON text

A text is cut into tokens in one pass. The pass keeps a mode that says what the characters since
the last complete token belong to, and each character takes it to the next mode. A text is read as
code units first: a character beyond the basic plane may be escaped as a pair of surrogates, and a
text with a surrogate alone is unreadable. So is a number beyond the binary format of 64 bits, in
which all numbers but integers are read.
-/

namespace NodeCoverage
namespace Json

/-- A token; a scalar is a number or one of the three words. -/
inductive Token where
  | openArray
  | closeArray
  | openObject
  | closeObject
  | comma
  | colon
  | scalar (value : Json)
  /-- A text, if it is readable. -/
  | text (value : Option String)

namespace Lexer

/-- What the characters since the last complete token belong to. The characters of the unfinished
token come last first. -/
inductive Mode where
  | between
  | word (read : List Char)
  | numeral (read : List Char)
  /-- Inside a text, read as code points and escaped code units. -/
  | text (read : List Nat)
  /-- Just after a backslash. -/
  | escape (read : List Nat)
  /-- Inside the digits of an escaped code unit, `count` of them read. -/
  | unit (read : List Nat) (count value : Nat)

/-- The tokens so far, last first, and the mode. -/
structure State where
  tokens : List Token
  mode : Mode

def isSpace (c : Char) : Bool :=
  c = ' ' || c = '\t' || c = '\n' || c = '\r'

def wordValue? (w : List Char) : Option Json :=
  if w = "null".toList then some .null
  else if w = "true".toList then some (.bool true)
  else if w = "false".toList then some (.bool false)
  else none

def numeralValue? (s : List Char) : Option Json := do
  let (negative, s) := match s with
    | '-' :: r => (true, r)
    | r => (false, r)
  let n ← Numeral.ofText? s
  match n.integer? negative with
  | some i => some (.integer i)
  | none =>
    match n.magnitude? with
    | some x => some (.float negative x)
    | none => some .unreadable

def isHighSurrogate (u : Nat) : Bool := 0xD800 ≤ u && u < 0xDC00

def isLowSurrogate (u : Nat) : Bool := 0xDC00 ≤ u && u < 0xE000

/-- The characters of a text. A high surrogate and the low one behind it are one character; neither
may be alone. -/
def characters? : List Nat → Option (List Char)
  | [] => some []
  | [u] => if isHighSurrogate u || isLowSurrogate u then none else some [Char.ofNat u]
  | u :: v :: rest =>
    if isHighSurrogate u then
      if isLowSurrogate v then
        (Char.ofNat (0x10000 + (u - 0xD800) * 0x400 + (v - 0xDC00)) :: ·) <$> characters? rest
      else none
    else if isLowSurrogate u then none
    else (Char.ofNat u :: ·) <$> characters? (v :: rest)

def between (tokens : List Token) (c : Char) : Option State :=
  if isSpace c then some ⟨tokens, .between⟩
  else match c with
    | '[' => some ⟨.openArray :: tokens, .between⟩
    | ']' => some ⟨.closeArray :: tokens, .between⟩
    | '\x7b' => some ⟨.openObject :: tokens, .between⟩
    | '\x7d' => some ⟨.closeObject :: tokens, .between⟩
    | ',' => some ⟨.comma :: tokens, .between⟩
    | ':' => some ⟨.colon :: tokens, .between⟩
    | '"' => some ⟨tokens, .text []⟩
    | c =>
      if c.isDigit ∨ c = '-' then some ⟨tokens, .numeral [c]⟩
      else if c.isAlpha then some ⟨tokens, .word [c]⟩
      else none

def escaped (tokens : List Token) (read : List Nat) (c : Char) : Option State :=
  match c with
  | '"' => some ⟨tokens, .text (0x22 :: read)⟩
  | '\\' => some ⟨tokens, .text (0x5C :: read)⟩
  | '/' => some ⟨tokens, .text (0x2F :: read)⟩
  | 'b' => some ⟨tokens, .text (0x08 :: read)⟩
  | 'f' => some ⟨tokens, .text (0x0C :: read)⟩
  | 'n' => some ⟨tokens, .text (0x0A :: read)⟩
  | 'r' => some ⟨tokens, .text (0x0D :: read)⟩
  | 't' => some ⟨tokens, .text (0x09 :: read)⟩
  | 'u' => some ⟨tokens, .unit read 0 0⟩
  | _ => none

def step (s : State) (c : Char) : Option State :=
  match s.mode with
  | .between => between s.tokens c
  | .word read =>
    if c.isAlpha then some ⟨s.tokens, .word (c :: read)⟩
    else do between (.scalar (← wordValue? read.reverse) :: s.tokens) c
  | .numeral read =>
    if c.isAlphanum ∨ c = '.' ∨ c = '+' ∨ c = '-' then some ⟨s.tokens, .numeral (c :: read)⟩
    else do between (.scalar (← numeralValue? read.reverse) :: s.tokens) c
  | .text read =>
    if c = '"' then
      some ⟨.text (String.ofList <$> characters? read.reverse) :: s.tokens, .between⟩
    else if c = '\\' then some ⟨s.tokens, .escape read⟩
    else if c.toNat < 0x20 then none
    else some ⟨s.tokens, .text (c.toNat :: read)⟩
  | .escape read => escaped s.tokens read c
  | .unit read count value => do
    let value := 16 * value + (← Text.hexValue? c)
    if count = 3 then some ⟨s.tokens, .text (value :: read)⟩
    else some ⟨s.tokens, .unit read (count + 1) value⟩

end Lexer

def tokens? (s : List Char) : Option (List Token) := do
  let done ← (s ++ [' ']).foldlM Lexer.step ⟨[], .between⟩
  match done.mode with
  | .between => some done.tokens.reverse
  | _ => none

end Json
end NodeCoverage
