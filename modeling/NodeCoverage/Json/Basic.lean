/-!
# JSON values

A value as it is written: an object keeps its members in order, also when a key repeats, and an
integer of 64 bits is told apart from other numbers. Looking up a key gives the last member of that
name, but a member that may be missing is read wherever it occurs. A text may hold a value that is
well formed but stands for nothing, and such a value can be passed over but not read.
-/

namespace NodeCoverage

/-- A JSON value. A number that is no integer of 64 bits has a sign, also when it is zero, and a
magnitude of the binary format of 64 bits. -/
inductive Json where
  | null
  | bool (value : Bool)
  | integer (value : Int)
  | float (negative : Bool) (magnitude : Rat)
  | string (value : String)
  | array (items : List Json)
  | object (members : List (String × Json))
  /-- Something well formed that stands for nothing, such as a text with half a surrogate pair. -/
  | unreadable

namespace Json

instance : Inhabited Json :=
  ⟨.null⟩

def members (key : String) : Json → List Json
  | .object ms => ms.filterMap fun (k, v) => if k = key then some v else none
  | _ => []

/-- The value of the last member of that name. -/
def member? (key : String) (j : Json) : Option Json :=
  (j.members key).getLast?

/-- The value of the last member of that name, unless it is `null`. -/
def present? (key : String) (j : Json) : Option Json :=
  match j.member? key with
  | some .null => none
  | other => other

/-! ### Reading a value of a known kind -/

def bool? : Json → Option Bool
  | .bool b => some b
  | _ => none

def string? : Json → Option String
  | .string s => some s
  | _ => none

def integer? : Json → Option Int
  | .integer i => some i
  | _ => none

/-- An integer from zero to `last`. -/
def natural? (last : Nat) (j : Json) : Option Nat := do
  let i ← j.integer?
  if 0 ≤ i ∧ i ≤ last then some i.toNat else none

def list? (item : Json → Option α) : Json → Option (List α)
  | .array js => js.mapM item
  | _ => none

def dictionary? (value : Json → Option α) : Json → Option (List (String × α))
  | .object ms => ms.mapM fun (k, v) => (k, ·) <$> value v
  | _ => none

def nullable? (value : Json → Option α) : Json → Option (Option α)
  | .null => some none
  | j => some <$> value j

/-- A member that may be missing or `null`, and is otherwise read by `value`. Where the key repeats,
all of its members must be readable and the last one counts. -/
def optional? (key : String) (value : Json → Option α) (j : Json) : Option (Option α) :=
  (fun vs => vs.getLast?.join) <$> (j.members key).mapM (nullable? value)

mutual

def isReadable : Json → Bool
  | .unreadable => false
  | .array js => readableItems js
  | .object ms => readableMembers ms
  | _ => true

def readableItems : List Json → Bool
  | [] => true
  | j :: js => j.isReadable && readableItems js

def readableMembers : List (String × Json) → Bool
  | [] => true
  | (_, v) :: ms => v.isReadable && readableMembers ms

end

/-- The members that have a value, for an object whose other members are left out. -/
def ofPresent (ms : List (String × Option Json)) : Json :=
  .object (ms.filterMap fun (k, v) => (k, ·) <$> v)

end Json
end NodeCoverage
