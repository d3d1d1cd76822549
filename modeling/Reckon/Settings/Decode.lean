import Reckon.File
import Reckon.Settings
import Reckon.Text.ByteOrder
import Reckon.Text.Quoted
import Reckon.Text.Utf8
import Reckon.Yaml.Mapping

/-!
# Settings as text

Settings are written as a mapping. What it does not mention, or leaves empty, keeps its default. All
the entries that cannot be understood are reported together, in the order they are written in; a
mapping with a repeated key reports only its repeated keys. Entries that a mapping merges count
where it has no entry with the same key.

* `Settings.ofText`: the settings that a text gives.
* `Settings.ofFile`: the settings that a file gives.
* `LoadError.message`: the wording of what can go wrong.
-/

namespace Reckon

open Yaml (Node Tag SyntaxError Layer repeats mergedLayers)

/-- What a node has to be. -/
inductive Shape
  | bool
  | text
  | dialect
  | settings
deriving DecidableEq, Repr

/-- How a shape is called. -/
def Shape.name : Shape → String
  | bool => "bool"
  | text => "string"
  | dialect => "exprlang.Quirks"
  | settings => "exprlang.Config"

/-- What a node is instead. -/
inductive Found
  | scalar (tag : Tag) (text : String)
  | sequence
  | mapping
deriving DecidableEq, Repr

/-- A text of more than ten bytes is shown by its first seven. -/
def abridged (s : String) : String :=
  let bytes := Text.utf8 s
  if 10 < bytes.length then String.ofList (Text.Utf8.decode (bytes.take 7)) ++ "..." else s

/-- How what was found is described. -/
def Found.text : Found → String
  | scalar tag text => tag.text ++ " `" ++ abridged text ++ "`"
  | sequence => "!!seq"
  | mapping => "!!map"

/-- Why an entry cannot be understood. -/
inductive FieldError
  | mismatch (found : Found) (expected : Shape)
  | unknownKey (key : String) (owner : Shape)
  | repeatedKey (key : String) (firstLine : Nat)
deriving DecidableEq, Repr

/-- The wording of a field error. -/
def FieldError.message : FieldError → String
  | mismatch found expected => "cannot unmarshal " ++ found.text ++ " into " ++ expected.name
  | unknownKey key owner => "field " ++ key ++ " not found in type " ++ owner.name
  | repeatedKey key firstLine =>
    "mapping key " ++ Text.quote key ++ " already defined at line " ++ toString firstLine

/-- A field error and the line it is on. -/
structure FieldErrorAt where
  line : Nat
  error : FieldError
deriving DecidableEq, Repr

/-- The line that reports a field error. -/
def FieldErrorAt.text (e : FieldErrorAt) : String :=
  "line " ++ toString e.line ++ ": " ++ e.error.message

/-- A value with what could be understood, and the errors of the rest. -/
structure Decoded (α : Type) where
  value : α
  errors : List FieldErrorAt := []

/-! ## Nodes -/

/-- What a node is. -/
def Found.ofNode : Node → Found
  | .scalar _ quoted text => .scalar (.ofScalar quoted text) text
  | .sequence _ _ => .sequence
  | .mapping _ _ => .mapping

/-- The errors of the repeated keys of a mapping. -/
def repeatedKeys (entries : List (Node × Node)) : List FieldErrorAt :=
  (repeats (entries.map Prod.fst)).map fun (first, later) =>
    ⟨later.line, .repeatedKey later.keyText first.line⟩

/-- The errors of a node that should have a shape and does not. -/
def mismatches (n : Node) (expected : Shape) : List FieldErrorAt :=
  let wrong : List FieldErrorAt := [⟨n.line, .mismatch (.ofNode n) expected⟩]
  match n with
  | .mapping _ entries =>
    match repeatedKeys entries with
    | [] => wrong
    | errors => errors
  | _ => wrong

/-- A node that gives no value. -/
def isNothing (n : Node) : Bool := n.tag? == some .null

/-! ## Values -/

/-- The words for truth values that only a place for a truth value takes. -/
def truthWord? (text : String) : Option Bool :=
  if ["y", "Y", "yes", "Yes", "YES", "on", "On", "ON"].contains text then some true
  else if ["n", "N", "no", "No", "NO", "off", "Off", "OFF"].contains text then some false
  else none

/-- The truth value of a node, if it has one. -/
def boolOf? (n : Node) : Option Bool :=
  match Found.ofNode n with
  | .scalar (.bool b) _ => some b
  | .scalar .str text => truthWord? text
  | _ => none

/-- Decodes a value with a reader; a node that gives no value keeps the old one. -/
def decodeWith {α : Type} (read : Node → Option α) (shape : Shape) (n : Node) (old : α) :
    Decoded α :=
  if isNothing n then ⟨old, []⟩
  else
    match read n with
    | some new => ⟨new, []⟩
    | none => ⟨old, mismatches n shape⟩

/-- Decodes a truth value. -/
def decodeBool (n : Node) (old : Bool) : Decoded Bool := decodeWith boolOf? .bool n old

/-- Decodes a text. Any scalar will do, as it is written. -/
def decodeText (n : Node) (old : String) : Decoded String :=
  decodeWith (fun n => match n with | .scalar _ _ text => some text | _ => none) .text n old

/-! ## Records -/

/-- Why mappings cannot be merged: something else is to be merged, or a key that is a sequence or a
mapping stands beside. -/
inductive MergeError
  | notMapping
  | compositeKey
deriving DecidableEq, Repr

/-- The wording of a merge error. -/
def MergeError.message : MergeError → String
  | notMapping => "map merge requires map or sequence of maps as the value"
  | compositeKey => "runtime error: hash of unhashable type"

/-- A part of a value, decoded in its place. -/
def Decoded.map {α β : Type} (put : α → β) (d : Decoded α) : Decoded β := ⟨put d.value, d.errors⟩

/-- How the entries of a mapping with a certain key change a value. -/
abbrev Fields (α : Type) := String → Option (Node → α → Except MergeError (Decoded α))

/-- Decodes the entries of a mapping one after the other. An entry with an empty key does not count,
nor does what is to be merged. -/
def decodeEntries {α : Type} (shape : Shape) (fields : Fields α) :
    List (Node × Node) → α → Except MergeError (Decoded α)
  | [], old => .ok ⟨old, []⟩
  | (key, n) :: rest, old => do
    let entry : Decoded α ←
      match key with
      | .scalar line _ text =>
        if isNothing key || key.tag? == some .merge then .ok ⟨old, []⟩
        else
          match fields text with
          | some decode => decode n old
          | none => .ok ⟨old, [⟨line, .unknownKey text shape⟩]⟩
      | key => .ok ⟨old, mismatches key .text⟩
    let tail ← decodeEntries shape fields rest entry.value
    return ⟨tail.value, entry.errors ++ tail.errors⟩

/-- The keys that no further entry may have once these entries have counted. -/
def usedKeys (entries : List (Node × Node)) : List String :=
  entries.filterMap fun (key, _) =>
    match key with
    | .scalar _ _ text => if isNothing key then none else some text
    | _ => none

/-- Decodes mappings that are merged. Of entries with the same key the first one counts. -/
def decodeLayers {α : Type} (shape : Shape) (fields : Fields α) :
    List Layer → List String → α → Except MergeError (Decoded α)
  | [], _, old => .ok ⟨old, []⟩
  | .other :: _, _, _ => .error .notMapping
  | .entries entries :: rest, used, old =>
    match repeatedKeys entries with
    | [] => do
      let fresh := entries.filter fun (key, _) =>
        match key with
        | .scalar _ _ text => !used.contains text
        | _ => true
      let layer ← decodeEntries shape fields fresh old
      let tail ← decodeLayers shape fields rest (usedKeys entries ++ used) layer.value
      return ⟨tail.value, layer.errors ++ tail.errors⟩
    | errors => do
      let tail ← decodeLayers shape fields rest used old
      return ⟨tail.value, errors ++ tail.errors⟩

/-- The keys beside a merge key that are texts. A key that is a sequence or a mapping cannot stand
there, but a mapping with repeated keys is reported once more instead. -/
def ownKeys : List (Node × Node) → Except MergeError (Decoded (List String))
  | [] => .ok ⟨[], []⟩
  | (key, _) :: rest => do
    let tail ← ownKeys rest
    match key with
    | .scalar _ _ text =>
      let isText := key.tag? == some .str || key.tag? == some .merge
      return { tail with value := if isText then text :: tail.value else tail.value }
    | .mapping _ entries =>
      match repeatedKeys entries with
      | [] => .error .compositeKey
      | errors => return { tail with errors := errors ++ tail.errors }
    | .sequence _ _ => .error .compositeKey

/-- Decodes a mapping with what it merges, unless a key is repeated. -/
def decodeRecord {α : Type} (shape : Shape) (fields : Fields α) (n : Node) (old : α) :
    Except MergeError (Decoded α) :=
  match n with
  | .mapping _ entries =>
    match repeatedKeys entries with
    | [] => do
      let own ← decodeEntries shape fields entries old
      if entries.any fun (key, _) => key.tag? == some .merge then
        let keys ← ownKeys entries
        let merged ← decodeLayers shape fields (mergedLayers entries) keys.value own.value
        return ⟨merged.value, own.errors ++ keys.errors ++ merged.errors⟩
      else return own
    | errors => .ok ⟨old, errors⟩
  | n => .ok (if isNothing n then ⟨old, []⟩ else ⟨old, mismatches n shape⟩)

/-- A key whose value is decoded on its own and then put in its place. -/
def field {α β : Type} (get : α → β) (put : α → β → α) (decode : Node → β → Decoded β) :
    Option (Node → α → Except MergeError (Decoded α)) :=
  some fun n a => .ok ((decode n (get a)).map (put a))

/-- The keys of a dialect. -/
def Dialect.fields : Fields Dialect
  | "not_equal_is_equal" =>
    field (·.notEqualIsEqual) (fun d b => { d with notEqualIsEqual := b }) decodeBool
  | "shift_left_assign_adds" =>
    field (·.shiftLeftAssignAdds) (fun d b => { d with shiftLeftAssignAdds := b }) decodeBool
  | _ => none

/-- Decodes whether to start with the prelude. -/
def decodePrelude (n : Node) (old : Option Bool) : Decoded (Option Bool) :=
  decodeWith (fun n => (boolOf? n).map some) .bool n old

/-- The keys of settings. -/
def Settings.fields : Fields Settings
  | "echo" => field (·.echo) (fun s b => { s with echo := b }) decodeBool
  | "prelude" => field (·.prelude) (fun s b => { s with prelude := b }) decodePrelude
  | "trace" => field (·.trace) (fun s b => { s with trace := b }) decodeBool
  | "history" => field (·.history) (fun s t => { s with history := t }) decodeText
  | "quirks" =>
    some fun n s =>
      (decodeRecord .dialect Dialect.fields n s.dialect).map
        (·.map fun d => { s with dialect := d })
  | _ => none

/-! ## Texts and files -/

/-- Why a text gives no settings. -/
inductive SettingsError
  | malformed (e : SyntaxError)
  | unmerged (e : MergeError)
  | fields (errors : List FieldErrorAt)
deriving DecidableEq, Repr

/-- The wording of why a text gives no settings. -/
def SettingsError.message : SettingsError → String
  | malformed e => "config: yaml: " ++ e.message
  | unmerged e => "config: yaml: " ++ e.message
  | fields errors =>
    "config: yaml: unmarshal errors:" ++ String.join (errors.map fun e => "\n  " ++ e.text)

/-- Why a file gives no settings. -/
inductive LoadError
  | unopened (path reason : String)
  | invalid (path : String) (e : SettingsError)
deriving DecidableEq, Repr

/-- The wording of why a file gives no settings. -/
def LoadError.message : LoadError → String
  | unopened path reason => "config: open " ++ path ++ ": " ++ File.openError path reason
  | invalid path e => path ++ ": " ++ e.message

namespace Settings

/-- The settings that a text gives. A text without a document gives the defaults. -/
def ofText (text : List Char) : Except SettingsError Settings :=
  match Node.ofText? text with
  | .error e => .error (.malformed e)
  | .ok none => .ok default
  | .ok (some n) =>
    match decodeRecord .settings fields n default with
    | .error e => .error (.unmerged e)
    | .ok ⟨settings, []⟩ => .ok settings
    | .ok ⟨_, errors⟩ => .error (.fields errors)

/-- The settings that the file with a path gives. -/
def ofFile (path : String) (file : File) : Except LoadError Settings :=
  match file with
  | .unopened reason => .error (.unopened path reason)
  | .unread reason =>
    .error (.invalid path (.malformed ⟨0, .input (File.readError path reason)⟩))
  | .text chars => (ofText chars).mapError (.invalid path)

end Settings

end Reckon
