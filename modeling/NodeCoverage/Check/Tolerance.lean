import NodeCoverage.Cluster.Object
import NodeCoverage.Text.Entries
import Std.Data.ExtTreeSet
/-!
# Tolerances

A tolerance stands for the taints of one key, value and effect, an absent value being the same as
an empty one. A run tolerates a set of them, listed in order, so that the workload built from it
does not depend on the order in which the taints were met. Whether a taint is tolerated depends on
its key and value alone.
-/

namespace NodeCoverage

/-- The taints of one key, value and effect. -/
structure Tolerance where
  key : String
  value : String
  effect : String
deriving DecidableEq

namespace Tolerance

/-- By key, then by value, then by effect. -/
instance : Ord Tolerance where
  compare := compareLex (compareOn key) (compareLex (compareOn value) (compareOn effect))

instance : Std.TransOrd Tolerance :=
  inferInstanceAs
    (Std.TransCmp (compareLex (compareOn key) (compareLex (compareOn value) (compareOn effect))))

instance : Std.LawfulEqOrd Tolerance where
  eq_of_compare {a b} h := by
    have h' : (compare a.key b.key).then
        ((compare a.value b.value).then (compare a.effect b.effect)) = .eq := h
    simp only [Ordering.then_eq_eq, Std.LawfulEqOrd.compare_eq_iff_eq] at h'
    obtain ⟨hk, hv, he⟩ := h'
    cases a
    cases b
    simp_all

def ofTaint (t : Taint) : Tolerance :=
  ⟨t.key, t.value.getD "", t.effect⟩

/-- The tolerance as a pod states it: equality, where empty texts are left out. -/
def toToleration (t : Tolerance) : Toleration where
  key := some t.key
  operator := some "Equal"
  value := if t.value.isEmpty then none else some t.value
  effect := if t.effect.isEmpty then none else some t.effect

/-- Reads `key,value,effect`. Only the value may be blank. -/
def ofEntry? (entry : List Char) : Option Tolerance :=
  match (Text.pieces ',' entry).map Text.trimChars with
  | [key, value, effect] =>
    if key.isEmpty || effect.isEmpty then none
    else some ⟨String.ofList key, String.ofList value, String.ofList effect⟩
  | _ => none

end Tolerance

/-- A taint, by key and effect, that is never tolerated. -/
structure AllowedTaint where
  key : String
  effect : String
deriving DecidableEq

namespace AllowedTaint

def covers (a : AllowedTaint) (t : Taint) : Bool :=
  a.key == t.key && a.effect == t.effect

/-- Reads `key:effect`, both not blank; the effect begins behind the first colon. -/
def ofEntry? (entry : List Char) : Option AllowedTaint := do
  let (key, effect) ← Text.cutAtFirst ':' entry
  let key := Text.trimChars key
  let effect := Text.trimChars effect
  if key.isEmpty || effect.isEmpty then none
  else some ⟨String.ofList key, String.ofList effect⟩

/-- Reads a list of allowed taints; the error is the first entry that is not `key:effect`. -/
def parseList (text : String) : Except String (List AllowedTaint) :=
  Text.readEntries ',' ofEntry? text

end AllowedTaint

abbrev ToleranceSet := Std.ExtTreeSet Tolerance

namespace ToleranceSet

def ofTaints (taints : List Taint) (excluded : List AllowedTaint) : ToleranceSet :=
  Std.ExtTreeSet.ofList
    ((taints.filter fun t => !excluded.any (·.covers t)).map Tolerance.ofTaint)

/-- One tolerance for each taint of the nodes that is not excluded. -/
def ofNodes (nodes : List Node) (excluded : List AllowedTaint) : ToleranceSet :=
  ofTaints (nodes.flatMap Node.taints) excluded

/-- Reads triples separated by semicolons; the error is the first entry that is not
`key,value,effect`. -/
def parse (text : String) : Except String ToleranceSet :=
  (Std.ExtTreeSet.ofList ·) <$> Text.readEntries ';' Tolerance.ofEntry? text

/-- Some tolerance has the taint's key and value. -/
def tolerates (set : ToleranceSet) (t : Taint) : Bool :=
  set.toList.any fun tolerance => tolerance.key == t.key && tolerance.value == t.value.getD ""

def toleratesAll (set : ToleranceSet) (taints : List Taint) : Bool :=
  taints.all set.tolerates

def tolerations (set : ToleranceSet) : List Toleration :=
  set.toList.map Tolerance.toToleration

end ToleranceSet
end NodeCoverage
