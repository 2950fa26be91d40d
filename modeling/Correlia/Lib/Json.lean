import Correlia.Lib.Sorted
import Correlia.Lib.Text

/-!
# Lib.Json — JSON values, their paths and their canonical text

A number is an integer, or a float as `float.__repr__` writes it.  `canonicalJson` is what
`json.dumps(value, sort_keys=True, separators=(",", ":"), ensure_ascii=False)` returns.
-/

namespace Lib

inductive Json
  | null
  | bool (b : Bool)
  | int (n : ℤ)
  | float (repr : String)
  | string (s : String)
  | array (items : List Json)
  | object (fields : List (String × Json))

namespace Json

/-- Induction on a value, with the members of a container at hand. -/
@[elab_as_elim] theorem induction {P : Json → Prop} (null : P .null) (bool : ∀ b, P (.bool b))
    (int : ∀ n, P (.int n)) (float : ∀ r, P (.float r)) (string : ∀ s, P (.string s))
    (array : ∀ items, (∀ j ∈ items, P j) → P (.array items))
    (object : ∀ fields, (∀ e ∈ fields, P e.2) → P (.object fields)) (j : Json) : P j := by
  refine Json.rec (motive_1 := P) (motive_2 := fun l => ∀ j ∈ l, P j)
    (motive_3 := fun l => ∀ e ∈ l, P e.2) (motive_4 := fun e => P e.2) null bool int float string
    array object ?_ ?_ ?_ ?_ ?_ j
  · simp
  · exact fun j l hj hl => List.forall_mem_cons.mpr ⟨hj, hl⟩
  · simp
  · exact fun e l he hl => List.forall_mem_cons.mpr ⟨he, hl⟩
  · exact fun k v hv => hv

/-! ### Distinct keys -/

/-- No object repeats a key, at any depth: what a Python `dict` tree is. -/
inductive Distinct : Json → Prop
  | null : Distinct .null
  | bool (b : Bool) : Distinct (.bool b)
  | int (n : ℤ) : Distinct (.int n)
  | float (r : String) : Distinct (.float r)
  | string (s : String) : Distinct (.string s)
  | array {items : List Json} (h : ∀ j ∈ items, Distinct j) : Distinct (.array items)
  | object {fields : List (String × Json)} (hk : (fields.map Prod.fst).Nodup)
      (h : ∀ e ∈ fields, Distinct e.2) : Distinct (.object fields)

theorem Distinct.items {items : List Json} (h : Distinct (.array items)) :
    ∀ j ∈ items, Distinct j := by
  cases h with
  | array h => exact h

theorem Distinct.keys {fields : List (String × Json)} (h : Distinct (.object fields)) :
    (fields.map Prod.fst).Nodup := by
  cases h with
  | object hk _ => exact hk

theorem Distinct.values {fields : List (String × Json)} (h : Distinct (.object fields)) :
    ∀ e ∈ fields, Distinct e.2 := by
  cases h with
  | object _ h => exact h

/-! ### Paths -/

inductive Step
  | key (k : String)
  | index (n : ℕ)
deriving DecidableEq

abbrev Path := List Step

/-- The member of a container at one step. -/
def child : Json → Step → Option Json
  | .array items, .index n => items[n]?
  | .object fields, .key k => getItem k fields
  | _, _ => none

/-- The value at a path. -/
def at? : Json → Path → Option Json
  | j, [] => some j
  | j, s :: p => (j.child s).bind fun c => c.at? p

@[simp] theorem at?_nil (j : Json) : j.at? [] = some j := by cases j <;> rfl

theorem at?_cons (j : Json) (s : Step) (p : Path) :
    j.at? (s :: p) = (j.child s).bind fun c => c.at? p := by cases j <;> rfl

theorem Distinct.child {j c : Json} {s : Step} (hd : j.Distinct) (hc : j.child s = some c) :
    c.Distinct := by
  cases j with
  | array items =>
    cases s with
    | key k => cases hc
    | index n => exact hd.items c (List.mem_of_getElem? hc)
  | object fields =>
    cases s with
    | index n => cases hc
    | key k => exact hd.values (k, c) (mem_of_getItem hc)
  | _ => cases s <;> cases hc

/-! ### Canonical text -/

/-- One character of a JSON string. -/
def escapeChar (c : Char) : List Char :=
  if c = '"' then ['\\', '"']
  else if c = '\\' then ['\\', '\\']
  else if c = '\n' then ['\\', 'n']
  else if c = '\r' then ['\\', 'r']
  else if c = '\t' then ['\\', 't']
  else if c.toNat = 8 then ['\\', 'b']
  else if c.toNat = 12 then ['\\', 'f']
  else if c.toNat < 32 then ['\\', 'u'] ++ hexField 4 c.toNat
  else [c]

def stringText (s : String) : List Char := ['"'] ++ s.toList.flatMap escapeChar ++ ['"']

mutual

/-- `json.dumps(value, sort_keys=True, separators=(",", ":"), ensure_ascii=False)`. -/
def canonicalJson : Json → List Char
  | .null => "null".toList
  | .bool b => if b then "true".toList else "false".toList
  | .int n => (toString n).toList
  | .float r => r.toList
  | .string s => stringText s
  | .array items => ['['] ++ [','].intercalate (itemTexts items) ++ [']']
  | .object fields =>
    ['\x7b'] ++ [','].intercalate ((sortBy Prod.fst (fieldTexts fields)).map fun e =>
      stringText e.1 ++ [':'] ++ e.2) ++ ['\x7d']

def itemTexts : List Json → List (List Char)
  | [] => []
  | j :: rest => canonicalJson j :: itemTexts rest

def fieldTexts : List (String × Json) → List (String × List Char)
  | [] => []
  | (k, j) :: rest => (k, canonicalJson j) :: fieldTexts rest

end

end Json

/-- `len(text.encode("utf-8"))`. -/
def byteLength (text : List Char) : ℕ := (text.map Char.utf8Size).sum

end Lib
