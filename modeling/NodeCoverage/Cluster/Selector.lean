import NodeCoverage.Cluster.Object
import NodeCoverage.Text.Split
/-!
# Label selectors

A selector is a list of terms `key=value`, separated by commas. It picks the objects that carry
each of these labels with its value. A term without a sign picks nothing.
-/

namespace NodeCoverage
namespace Selector

/-- The labels satisfy one term; the value begins behind the first sign. -/
def termHolds (labels : Labels) (term : List Char) : Bool :=
  match Text.cutAtFirst '=' term with
  | some (key, value) => labels[String.ofList key]? == some (String.ofList value)
  | none => false

def picks (selector : String) (labels : Labels) : Bool :=
  (Text.pieces ',' selector.toList).all (termHolds labels)

end Selector

/-- The selector picks the object; one without labels carries none. -/
def Metadata.isPicked (m : Metadata) (selector : String) : Bool :=
  Selector.picks selector (m.labels.getD ∅)

end NodeCoverage
