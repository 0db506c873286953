import NodeCoverage.Text.Lowercase.Table
/-!
# Lower case

The lower-case form of a text by the Unicode rules that depend on no language: each character has
its own form, the capital `İ` becomes an `i` with a dot above, and a capital sigma becomes the
final sigma at the end of a word.
-/

namespace NodeCoverage
namespace Text
namespace Lowercase

def inRanges (table : List (Nat × Nat)) (c : Char) : Bool :=
  table.any fun (first, last) => first ≤ c.toNat && c.toNat ≤ last

/-- The Unicode property `Cased`. -/
def isCased (c : Char) : Bool :=
  inRanges casedRanges c

/-- The Unicode property `Case_Ignorable`. -/
def isIgnorable (c : Char) : Bool :=
  inRanges ignorableRanges c

/-- The lower-case form of a single character, whatever stands around it. -/
def ofChar (c : Char) : List Char :=
  if c = 'İ' then ['i', Char.ofNat 0x307]
  else
    let n := c.toNat
    match mapping.find? fun (first, last, step, _) =>
        first ≤ n && n ≤ last && (n - first) % step == 0 with
    | some (first, _, _, image) => [Char.ofNat (image + (n - first))]
    | none => [c]

/-- The nearest character that is not case-ignorable is cased. -/
def meetsCased (s : List Char) : Bool :=
  match s.dropWhile isIgnorable with
  | [] => false
  | c :: _ => isCased c

/-- The lower-case form of the text `s` that follows the text whose reverse is `before`. A sigma is
final when a cased character comes before it and none after it. -/
def following (before : List Char) : List Char → List Char
  | [] => []
  | c :: s =>
    let form :=
      if c = 'Σ' then
        if meetsCased before && !meetsCased s then ['ς'] else ['σ']
      else ofChar c
    form ++ following (c :: before) s

end Lowercase

def lowercase (s : String) : String :=
  String.ofList (Lowercase.following [] s.toList)

end Text
end NodeCoverage
