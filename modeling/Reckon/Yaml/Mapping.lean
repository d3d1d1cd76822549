import Reckon.Yaml.Node
import Reckon.Yaml.Tag

/-!
# Mappings and what they merge

A mapping with the plain key `<<` takes over the entries of other mappings: of its value, or of the
items of its value one after the other, and of what these merge themselves.

* `repeats`: the keys of a mapping that occur more than once.
* `mergedLayers`: the mappings that a mapping takes entries from, in order.
-/

namespace Reckon.Yaml

/-! ## Keys -/

/-- What a scalar stands for. One in quotes stands for its own text. -/
def Tag.ofScalar (quoted : Bool) (text : String) : Tag :=
  if quoted then .str else .ofPlain text

namespace Node

/-- The text of a key. A sequence or a mapping has none of its own. -/
def keyText : Node → String
  | scalar _ _ text => text
  | _ => ""

/-- The tag of a scalar. -/
def tag? : Node → Option Tag
  | scalar _ quoted text => some (.ofScalar quoted text)
  | _ => none

/-- Two keys are the same: they are nodes of one kind with the same text. -/
def sameKey : Node → Node → Bool
  | scalar _ _ s, scalar _ _ t => s == t
  | sequence _ _, sequence _ _ => true
  | mapping _ _, mapping _ _ => true
  | _, _ => false

end Node

/-- The repeated keys, each with the earlier one: for every key, in order, the later ones that are
the same. -/
def repeats : List Node → List (Node × Node)
  | [] => []
  | k :: ks => (ks.filter k.sameKey).map (k, ·) ++ repeats ks

/-! ## Merging -/

/-- A mapping to take entries from, or something else in its place. -/
inductive Layer
  | entries (entries : List (Node × Node))
  | other

mutual

/-- A mapping and the mappings that it merges. One with repeated keys merges none. -/
def layers : Node → List Layer
  | .mapping _ entries =>
    .entries entries
      :: (if (repeats (entries.map Prod.fst)).isEmpty then mergedLayers entries else [])
  | _ => [.other]

/-- The mappings that the value of a merge key gives. -/
def valueLayers : Node → List Layer
  | .sequence _ items => itemLayers items
  | .mapping _ entries =>
    .entries entries
      :: (if (repeats (entries.map Prod.fst)).isEmpty then mergedLayers entries else [])
  | _ => [.other]

/-- The mappings that items give one after the other. -/
def itemLayers : List Node → List Layer
  | [] => []
  | n :: ns => layers n ++ itemLayers ns

/-- The mappings that the entries of a mapping merge. -/
def mergedLayers : List (Node × Node) → List Layer
  | [] => []
  | (key, n) :: rest => if key.tag? == some .merge then valueLayers n else mergedLayers rest

end

end Reckon.Yaml
