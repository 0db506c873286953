import NodeCoverage.Json.Lexer
/-!
# Reading JSON

The tokens of a text are put together with a stack of the arrays and objects that are still open.
A text is one value with blanks around it. Arrays and objects inside 127 others are unreadable, and
so is an object with an unreadable key.
-/

namespace NodeCoverage
namespace Json
namespace Parser

/-- An array or object that is still open, with what it holds so far, last first. -/
inductive Frame where
  | array (items : List Json)
  /-- An unreadable key is left out. -/
  | object (members : List (Option String × Json))
  /-- An object that waits for the value of a key. -/
  | member (members : List (Option String × Json)) (key : Option String)

inductive Expected where
  | value
  /-- A value, or the end of the array just opened. -/
  | valueOrEnd
  | key
  /-- A key, or the end of the object just opened. -/
  | keyOrEnd
  | colon (key : Option String)
  /-- A comma, or the end of the innermost array or object. -/
  | separator
  /-- Nothing: the value is complete. -/
  | nothing (result : Json)

/-- The open arrays and objects, innermost first, and what may come next. -/
structure State where
  stack : List Frame
  expected : Expected

/-- How many arrays and objects may be open around each other for the innermost to be readable. -/
def depthLimit : Nat := 127

/-- An array or object that ends inside the open ones. -/
def atDepth (outer : List Frame) (j : Json) : Json :=
  if outer.length < depthLimit then j else .unreadable

/-- The object with these members, if all keys are readable. -/
def ofMembers (ms : List (Option String × Json)) : Json :=
  match ms.mapM fun (key, v) => (·, v) <$> key with
  | some ms => .object ms
  | none => .unreadable

/-- A complete value goes into the innermost open array or object. -/
def place (stack : List Frame) (j : Json) : Option State :=
  match stack with
  | [] => some ⟨[], .nothing j⟩
  | .array items :: rest => some ⟨.array (j :: items) :: rest, .separator⟩
  | .member ms key :: rest => some ⟨.object ((key, j) :: ms) :: rest, .separator⟩
  | .object _ :: _ => none

def beginValue (stack : List Frame) : Token → Option State
  | .scalar j => place stack j
  | .text (some s) => place stack (.string s)
  | .text none => place stack .unreadable
  | .openArray => some ⟨.array [] :: stack, .valueOrEnd⟩
  | .openObject => some ⟨.object [] :: stack, .keyOrEnd⟩
  | _ => none

def close (stack : List Frame) : Token → Option State
  | .closeArray =>
    match stack with
    | .array items :: rest => place rest (atDepth rest (.array items.reverse))
    | _ => none
  | .closeObject =>
    match stack with
    | .object ms :: rest => place rest (atDepth rest (ofMembers ms.reverse))
    | _ => none
  | _ => none

def beginMember (stack : List Frame) : Token → Option State
  | .text key => some ⟨stack, .colon key⟩
  | _ => none

def step (s : State) (t : Token) : Option State :=
  match s.expected with
  | .value => beginValue s.stack t
  | .valueOrEnd => (close s.stack t).orElse fun _ => beginValue s.stack t
  | .key => beginMember s.stack t
  | .keyOrEnd => (close s.stack t).orElse fun _ => beginMember s.stack t
  | .colon key =>
    match t, s.stack with
    | .colon, .object ms :: rest => some ⟨.member ms key :: rest, .value⟩
    | _, _ => none
  | .separator =>
    match t, s.stack with
    | .comma, .array _ :: _ => some ⟨s.stack, .value⟩
    | .comma, .object _ :: _ => some ⟨s.stack, .key⟩
    | t, stack => close stack t
  | .nothing _ => none

end Parser

def parse? (text : String) : Option Json := do
  let done ← (← tokens? text.toList).foldlM Parser.step ⟨[], .value⟩
  match done.expected with
  | .nothing j => some j
  | _ => none

end Json
end NodeCoverage
