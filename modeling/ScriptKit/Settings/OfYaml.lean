import ScriptKit.Settings.Field
import ScriptKit.Yaml.Meaning

/-!
# Settings in YAML

Names count as they are written, and a field nobody knows is refused. Any scalar will do for a text, a few
words besides true and false are truth values, and a number with a fraction loses it. An absent value leaves
a text or a section as it is and takes back any other field; an absent name is passed over, whatever it is
given.

A map may take in other maps, whose fields count where neither the map itself nor one taken in before has
given them. No map may give a name twice.
-/

namespace ScriptKit.Settings

namespace OfYaml

open Yaml

/-- What a scalar stands for. -/
def scalar? : Yaml → Option Meaning
  | .scalar tag plain value => meaning? tag plain value
  | _ => none

/-! ## Values -/

/-- A value that may be absent, as a text. -/
def text? (node : Yaml) : Option (Option Text) :=
  match node.behind with
  | .scalar tag plain value =>
    (meaning? tag plain value).map fun
      | .null => none
      | .text t => some t
      | _ => some value
  | _ => none

/-- The words that will do for true. -/
def yeses : List Text := ["y", "Y", "yes", "Yes", "YES", "on", "On", "ON"]

/-- The words that will do for false. -/
def noes : List Text := ["n", "N", "no", "No", "NO", "off", "Off", "OFF"]

/-- A truth value that may be absent. -/
def truth? (node : Yaml) : Option (Option Bool) :=
  match scalar? node.behind with
  | some .null => some none
  | some (.bool b) => some (some b)
  | some (.text t) =>
    if yeses.contains t then some (some true) else if noes.contains t then some (some false) else none
  | _ => none

/-- The whole part of a number with a fraction, in 64 bits. What is too small is the least number, and the size
just out of reach wraps around to it. -/
def truncated? : Amount → Option Int
  | .finite true a => some (-((min a.floor Text.bound64 : Nat) : Int))
  | .finite false a =>
    let bound := Text.bound64
    if a.num ≤ bound * a.den then some (if a.floor = bound then -(bound : Int) else a.floor) else none
  | .infinite true => some (-(Text.bound64 : Int))
  | .infinite false => none
  | .undefined => none

/-- A whole number that may be absent. -/
def number? (node : Yaml) : Option (Option Int) :=
  match scalar? node.behind with
  | some .null => some none
  | some (.int n) => some (some n)
  | some (.amount x) => (truncated? x).map some
  | _ => none

/-- A list of names; an absent item is left out, and the list itself may be absent. -/
def names? (node : Yaml) : Option (List Text) :=
  match node.behind with
  | .list items => (items.mapM text?).map fun ts => ts.filterMap id
  | node =>
    match scalar? node with
    | some .null => some []
    | _ => none

/-- Set a field. -/
def setField (s : Settings) (field : Field) (node : Yaml) : Option Settings :=
  match field with
  | .level | .format => do
    match ← text? node with
    | some t => s.set field (.text t)
    | none => some s
  | .pretty | .colour => do s.set field (.truth (← truth? node))
  | .seed => do s.set field (.number (← number? node))
  | .allow | .deny => do s.set field (.names (← names? node))

/-! ## Maps -/

/-- Whether two keys count as the same: scalars and aliases by what is written, collections always. -/
def sameKey : Yaml → Yaml → Bool
  | .scalar _ _ a, .scalar _ _ b => a == b
  | .alias a _, .alias b _ => a == b
  | .list _, .list _ => true
  | .map _, .map _ => true
  | _, _ => false

/-- Whether no two keys count as the same. -/
def distinct : List (Yaml × Yaml) → Bool
  | [] => true
  | (key, _) :: pairs => pairs.all (fun p => !sameKey key p.1) && distinct pairs

/-- How the value with a name is taken in. -/
abbrev Assign := Settings → Text → Yaml → Option Settings

/-- What was taken in, and, inside a map that another one takes in, the names that count no more. -/
structure State where
  settings : Settings
  taken : Option (List Text) := none

/-- Take in the value with a name, unless the name counts no more. `done` holds the names of this map. -/
def assignName (assign : Assign) (st : State) (done : List Text) (name : Text) (value : Yaml) :
    Option (State × List Text) :=
  if st.taken.any (·.contains name) then some (st, done)
  else if done.contains name then none
  else do
    let settings ← assign st.settings name value
    some (⟨settings, st.taken.map (name :: ·)⟩, name :: done)

/-- Take in the pairs of a map, except for the maps that it takes in. -/
def assignPairs (assign : Assign) (st : State) (done : List Text) : List (Yaml × Yaml) → Option State
  | [] => some st
  | (key, value) :: pairs =>
    if key.isMergeKey then assignPairs assign st done pairs
    else
      match text? key with
      | none => none
      | some none => assignPairs assign st done pairs
      | some (some name) =>
        match assignName assign st done name value with
        | some (st, done) => assignPairs assign st done pairs
        | none => none

/-- The names of a map. -/
def namesOf (pairs : List (Yaml × Yaml)) : List Text := pairs.filterMap fun p => (text? p.1).join

/-- The maps a value lists that a map takes in: a map, or a list of maps. -/
def mapsOf? (node : Yaml) : Option (List (List (Yaml × Yaml))) :=
  match node.behind, node with
  | .map pairs, _ => some [pairs]
  | _, .list items => items.mapM fun item =>
    match item.behind with
    | .map pairs => some pairs
    | _ => none
  | _, _ => none

/-- Take in a map, and the maps that it takes in, with at most `n` maps open at a time. -/
def assignMap (assign : Assign) : Nat → State → List (Yaml × Yaml) → Option State
  | 0, _, _ => none
  | n + 1, st, pairs =>
    if distinct pairs then do
      let st ← assignPairs assign st [] pairs
      match pairs.find? fun p => p.1.isMergeKey with
      | none => some st
      | some (_, node) =>
        let inner := { st with taken := some (st.taken.getD (namesOf pairs)) }
        let inner ← (← mapsOf? node).foldlM (assignMap assign n) inner
        some { inner with taken := st.taken.bind fun _ => inner.taken }
    else none

/-- Take in a map or nothing. -/
def assignNode (assign : Assign) (bound : Nat) (s : Settings) (node : Yaml) : Option Settings :=
  match node.behind with
  | .map pairs => (assignMap assign bound { settings := s } pairs).map (·.settings)
  | node =>
    match scalar? node with
    | some .null => some s
    | _ => none

/-- Set the field with a given name. -/
def assignField (fields : List (Text × Field)) : Assign := fun s name node => do
  setField s (← fields.lookup name) node

/-- Take in a section. -/
def assignSection (bound : Nat) : Assign := fun s name node => do
  assignNode (assignField (← sections.lookup name)) bound s node

end OfYaml

/-- Settings with what is written in YAML filled in, if there is a document. No more maps are open at a time than the
text has glyphs. -/
def ofYaml? (s : Settings) (t : Text) : Option (Option Settings) := do
  let bound := t.length + 1
  match ← Yaml.read t with
  | none => some none
  | some node => (OfYaml.assignNode (OfYaml.assignSection bound) bound s node).map some

end ScriptKit.Settings
