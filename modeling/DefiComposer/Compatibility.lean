import DefiComposer.Text.Lowercase
import DefiComposer.Text.Basic

/-!
# Compatibility: whether what flows out of one port may flow into another

Tags are compared by their lowercase forms. Two tags go together when they are equal, when the list of synonyms of one
names the other, or when both contain one of four roots; the first of these tiers that holds is the verdict.
-/

namespace DefiComposer

/-- The tier that accepts a pair of tags. -/
inductive Tier where
  | exact
  | synonym
  | commonRoot
  deriving DecidableEq

/-- The name of a tier. -/
def Tier.tag : Tier → String
  | exact => "exact"
  | synonym => "synonym"
  | commonRoot => "commonRoot"

namespace Compatibility

/-- The synonyms of each tag. A tag in a list need not have a list that names the key in turn. -/
def synonyms : List (String × List String) :=
  [ ("asset",
      ["token", "liquidity", "coin", "currency", "collateral", "stakeAsset", "stakeReceipt", "receipt"]),
    ("token",
      ["asset", "liquidity", "coin", "currency", "collateral", "stakeAsset", "stakeReceipt", "receipt"]),
    ("coin", ["asset", "token", "liquidity", "currency", "collateral"]),
    ("currency", ["asset", "token", "liquidity", "coin", "collateral"]),
    ("liquidity", ["token", "asset", "coin", "currency"]),
    ("collateral", ["asset", "token", "coin", "currency"]),
    ("stake", ["token", "asset", "stakeAsset"]),
    ("stakeAsset", ["token", "asset", "stake"]),
    ("stakeReceipt", ["receipt", "token", "asset"]),
    ("receipt", ["stakeReceipt", "token", "asset", "depositReceipt", "loanReceipt"]),
    ("loan", ["asset", "token", "debt"]),
    ("debt", ["loan", "asset", "token"]),
    ("depositReceipt", ["receipt", "token", "asset"]),
    ("loanReceipt", ["receipt", "debt", "loan"]),
    ("interest", ["yield", "rewards", "revenue"]),
    ("yield", ["interest", "rewards", "revenue"]),
    ("rewards", ["yield", "interest", "asset", "token", "revenue"]),
    ("revenue", ["yield", "interest", "rewards", "asset", "token"]) ]

/-- The roots that make two tags go together. -/
def roots : List String := ["asset", "token", "receipt", "stake"]

/-- The form in which tags are compared. -/
def fold (tag : String) : List Char := Text.lower tag.toList

/-- The synonyms of a folded tag: those of the first entry whose key folds to it. -/
def synonymsOf (tag : List Char) : List String :=
  match synonyms.find? (fold ·.1 = tag) with
  | some entry => entry.2
  | none => []

/-- Whether the synonyms of one folded tag name another. -/
def lists (tag other : List Char) : Bool := (synonymsOf tag).any (fold · = other)

/-- Whether two folded tags contain a common root. -/
def shareRoot (a b : List Char) : Bool :=
  roots.any fun root => Text.occursIn root.toList a && Text.occursIn root.toList b

end Compatibility

/-- The verdict on a source tag and a target tag: the first tier that accepts them. -/
def compatibility (source target : String) : Option Tier :=
  let a := Compatibility.fold source
  let b := Compatibility.fold target
  if a = b then some .exact
  else if Compatibility.lists a b || Compatibility.lists b a then some .synonym
  else if Compatibility.shareRoot a b then some .commonRoot
  else none

end DefiComposer
