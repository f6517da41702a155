import Mathlib

/-!
# libconfig

The configuration library is not part of the repository; the program uses six of its calls, and
the model takes their answers as a parameter (`LibConfig`).

* `elems s` are the elements that `config_setting_length` counts and `config_setting_get_elem`
  returns (none for a setting that is no group, list or array);
* `getMember` is `config_setting_get_member`;
* a lookup answers `none` where the call returns `CONFIG_FALSE`, that is when the key is missing
  or has another type, and then leaves the variable it was given as it was;
* `lookup` is `config_lookup` from the root setting, with the path split at its dots.

`Tree` is the data libconfig reads from a file, with the lookups on it.
-/

namespace SimPokey

/-- `CONFIG_TRUE`. -/
def configTrue : ℤ := 1

/-- `CONFIG_FALSE`. -/
def configFalse : ℤ := 0

/-- `EXIT_FAILURE`. -/
def exitFailure : ℤ := 1

/-- The answers of libconfig about settings of type `Setting`. -/
class LibConfig (Setting : Type) where
  elems : Setting → List Setting
  getMember : Setting → String → Option Setting
  lookupString : Setting → String → Option String
  lookupInt : Setting → String → Option ℤ
  lookupBool : Setting → String → Option ℤ
  lookup : Setting → List String → Option Setting

/-- The elements of an optional setting; `NULL` has none. -/
def elemsOf {Setting : Type} [LibConfig Setting] (s : Option Setting) : List Setting :=
  s.elim [] LibConfig.elems

/-- The global `configuration` once it has been initialised: the root setting of the file that
was read, or destroyed. -/
inductive ConfigState (Setting : Type)
  | loaded (root : Setting)
  | destroyed

/-! ### Settings as data -/

/-- A setting of a configuration file. -/
inductive Tree
  | int (v : ℤ)
  | bool (b : Bool)
  | string (s : String)
  | group (members : List (String × Tree))
  | list (elems : List Tree)

namespace Tree

/-- `config_setting_get_member`. -/
def getMember : Tree → String → Option Tree
  | .group members, key => members.lookup key
  | _, _ => none

/-- The elements, in order. -/
def elems : Tree → List Tree
  | .group members => members.map Prod.snd
  | .list elems => elems
  | _ => []

instance : LibConfig Tree where
  elems := elems
  getMember := getMember
  lookupString t key :=
    match t.getMember key with
    | some (.string s) => some s
    | _ => none
  lookupInt t key :=
    match t.getMember key with
    | some (.int v) => some v
    | _ => none
  lookupBool t key :=
    match t.getMember key with
    | some (.bool b) => some b.toInt
    | _ => none
  lookup t path := path.foldlM getMember t

/-- A configuration file with the sections `devices` and `simulator`. -/
def file (devices simulator : List Tree) : Tree :=
  .group [("configuration", .group [("devices", .list devices), ("simulator", .list simulator)])]

/-- The group of a device. -/
def device (serialNumber : String) (pins pwm : List Tree) : Tree :=
  .group [("name", .string "Board"), ("serialNumber", .string serialNumber), ("pins", .list pins),
    ("pwm", .list pwm)]

/-- An entry of `pins`. -/
def port (pin : ℤ) (type : String) : Tree := .group [("pin", .int pin), ("type", .string type)]

/-- An entry of `pwm`. -/
def pwm (channel dutyCycle : ℤ) : Tree :=
  .group [("channel", .int channel), ("dutyCycle", .int dutyCycle)]

/-- An entry of `simulator` with all three keys. -/
def simulator (port : ℤ) : Tree :=
  .group [("type", .string "xplane"), ("ipAddress", .string "127.0.0.1"), ("port", .int port)]

end Tree

end SimPokey
