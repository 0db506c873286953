import NodeCoverage.Json.Basic
/-!
# Reports

A report is the verdict of a run: a list of error messages, and whether all is well, which is so
exactly when there are none. Reading a report accepts an object with its two members, each once,
or a list of the two in order.
-/

namespace NodeCoverage

structure Report where
  errors : List String
  ok : Bool
deriving DecidableEq

namespace Report

def ofErrors (errors : List String) : Report :=
  ⟨errors, errors.isEmpty⟩

def success : Report := ofErrors []

def failure (messages : List String) : Report := ofErrors messages

theorem ok_ofErrors {errors : List String} : (ofErrors errors).ok = true ↔ errors = [] := by
  simp [ofErrors]

def toJson (r : Report) : Json :=
  .object [("Errors", .array (r.errors.map .string)), ("OK", .bool r.ok)]

/-- Reads the two members, or the two items of a list. -/
def ofJson? (j : Json) : Option Report :=
  match j with
  | .array [errors, ok] => read errors ok
  | .object _ =>
    match j.members "Errors", j.members "OK" with
    | [errors], [ok] => read errors ok
    | _, _ => none
  | _ => none
where
  /-- A list of texts and a truth value. -/
  read (errors ok : Json) : Option Report := do
    pure ⟨← errors.list? Json.string?, ← ok.bool?⟩

private theorem mapM_string?_map_string (texts : List String) :
    (texts.map Json.string).mapM Json.string? = some texts := by
  induction texts with
  | nil => rfl
  | cons s texts ih => simp [List.mapM_cons, ih, Json.string?]

/-- A report is read back from what is sent. -/
theorem ofJson?_toJson (r : Report) : ofJson? r.toJson = some r := by
  have h := mapM_string?_map_string r.errors
  simp [ofJson?, toJson, ofJson?.read, Json.members, Json.list?, Json.bool?, h]

end Report
end NodeCoverage
