import Correlia.Lib.Sorted

/-!
# Lib.Yaml — what `yaml.safe_load` returns

A mapping is the list of its entries; a key that is no string, and a scalar that is no string,
integer, boolean or null, is given by its `str()`.  The readers are those of a strict model: a value
of another type is refused, and so is a key that is no field.
-/

namespace Lib

inductive YamlKey
  | str (s : String)
  | other (text : String)
deriving DecidableEq

/-- `str(key)`. -/
def YamlKey.text : YamlKey → String
  | str s => s
  | other t => t

inductive Yaml
  | null
  | bool (b : Bool)
  | int (n : ℤ)
  | str (s : String)
  | other (text : String)
  | seq (items : List Yaml)
  | map (entries : List (YamlKey × Yaml))

abbrev YamlMap := List (YamlKey × Yaml)

/-- `d.get(name)` -/
def getKey (name : String) (d : YamlMap) : Option Yaml := getItem (.str name) d

/-- A mapping with string keys. -/
def yamlMap (entries : List (String × Yaml)) : Yaml := .map (entries.map fun e => (.str e.1, e.2))

namespace Yaml

def isStr : Yaml → Bool
  | .str _ => true
  | _ => false

/-- A mapping, or the empty one in its place. -/
def entries : Yaml → YamlMap
  | .map d => d
  | _ => []

/-! ### Strict readers -/

def string? : Yaml → Option String
  | .str s => some s
  | _ => none

def int? : Yaml → Option ℤ
  | .int n => some n
  | _ => none

def list? {α : Type} (read : Yaml → Option α) : Yaml → Option (List α)
  | .seq items => items.mapM read
  | _ => none

/-- The entries of a mapping whose keys are all fields. -/
def fields? (allowed : List String) : Yaml → Option YamlMap
  | .map d => if d.all fun e => e.1 ∈ allowed.map YamlKey.str then some d else none
  | _ => none

theorem fields?_eq_some {allowed : List String} {v : Yaml} {d : YamlMap}
    (h : v.fields? allowed = some d) : d = v.entries := by
  cases v with
  | map d' =>
    rw [fields?, Option.ite_none_right_eq_some] at h
    exact (Option.some.inj h.2).symm
  | null | bool _ | int _ | str _ | other _ | seq _ => cases h

/-- `dict[str, str]`. -/
def stringDict? : Yaml → Option (Items String String)
  | .map d => do
    let entries ← d.mapM fun e =>
      match e.1, e.2 with
      | .str key, .str value => some (key, value)
      | _, _ => none
    if hk : (entries.map Prod.fst).Nodup then some ⟨entries, hk⟩ else none
  | _ => none

end Yaml

end Lib
