import NodeCoverage.Text.Blank
import NodeCoverage.Text.Split
/-!
# Lists of entries

A list is written with a separator between its entries. Blank characters around an entry do not
count, and neither do entries of nothing else. Reading such a list stops at the first entry that
is not well formed and names it.
-/

namespace NodeCoverage
namespace Text

/-- The entries of a list, trimmed. -/
def entries (sep : Char) (s : String) : List (List Char) :=
  ((pieces sep s.toList).map trimChars).filter fun e => !e.isEmpty

/-- Reads each entry; the error is the first entry that cannot be read. -/
def readEntries {α : Type} (sep : Char) (read : List Char → Option α) (s : String) :
    Except String (List α) :=
  (entries sep s).mapM fun e =>
    match read e with
    | some a => .ok a
    | none => .error (String.ofList e)

end Text
end NodeCoverage
