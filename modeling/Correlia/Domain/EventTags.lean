import Correlia.Domain.Events
import Correlia.Lib.Json

/-!
# Domain.EventTags — `validate_event_tags` on any mapping (`app/domain/events.py`)

A Python `str` is a list of code points, lone surrogates included.  Of an object that is no `str`
only its comparisons are known: they answer, or raise `TypeError`.
-/

namespace Correlia

open Lib

/-- A code point: a Unicode character or a lone surrogate, `U+D800` upwards. -/
inductive CodePoint
  | char (c : Char)
  | surrogate (n : Fin 0x800)
deriving DecidableEq

def CodePoint.toNat : CodePoint → ℕ
  | .char c => c.toNat
  | .surrogate n => 0xD800 + n

abbrev PyStr := List CodePoint

def PyStr.ofString (s : String) : PyStr := s.toList.map .char

inductive PyObject (α : Type)
  | str (s : PyStr)
  | other (x : α)

inductive PyException
  | typeError
  | unicodeError
  | eventTagValidationError
deriving DecidableEq, Repr

/-- `except e as exc: raise EventTagValidationError() from exc`. -/
def PyException.catching {β : Type} (e : PyException) (x : Except PyException β) :
    Except PyException β :=
  x.mapError fun e' => if e' = e then .eventTagValidationError else e'

/-! ### `sorted` -/

/-- How objects compare of which one is no `str`. -/
abbrev Comparison (α : Type) := PyObject α → PyObject α → Option Bool

/-- `x < y`: by code points between two `str`, else as `foreign` answers. -/
def PyObject.less {α : Type} (foreign : Comparison α) :
    PyObject α → PyObject α → Except PyException Bool
  | .str s, .str t => .ok (decide (s.map CodePoint.toNat < t.map CodePoint.toNat))
  | x, y =>
    match foreign x y with
    | some answer => .ok answer
    | none => .error .typeError

def insertSorted {α : Type} (foreign : Comparison α) (e : PyObject α × PyObject α) :
    List (PyObject α × PyObject α) → Except PyException (List (PyObject α × PyObject α))
  | [] => .ok [e]
  | f :: rest => do
    let before ← PyObject.less foreign f.1 e.1
    if before then
      let rest ← insertSorted foreign e rest
      return f :: rest
    else
      return e :: f :: rest

/-- `sorted(tags)`, each key with its value. -/
def sortedItems {α : Type} (foreign : Comparison α) :
    List (PyObject α × PyObject α) → Except PyException (List (PyObject α × PyObject α))
  | [] => .ok []
  | e :: rest => do
    let rest ← sortedItems foreign rest
    insertSorted foreign e rest

/-! ### The loop -/

/-- `_EVENT_TAG_KEY_PATTERN.fullmatch(key)`. -/
def fullmatchTagKey : PyStr → Bool
  | [] => false
  | .surrogate _ :: _ => false
  | .char c :: rest => isTagStart c && rest.all fun
    | .char c => isTagChar c
    | .surrogate _ => false

/-- `json.dumps(s, ensure_ascii=False)`. -/
def dumpsStr (s : PyStr) : PyStr :=
  [.char '"'] ++ (s.flatMap fun
    | .char c => (Json.escapeChar c).map .char
    | .surrogate n => [.surrogate n]) ++ [.char '"']

/-- `len(s.encode("utf-8"))`: a lone surrogate has no encoding. -/
def encodedLength : PyStr → Except PyException ℕ
  | [] => .ok 0
  | .surrogate _ :: _ => .error .unicodeError
  | .char c :: rest => do
    let n ← encodedLength rest
    return c.utf8Size + n

/-- The key and the value of a pair that passes the checks before the byte count. -/
def checkTagPair {α : Type} : PyObject α × PyObject α → Except PyException (PyStr × PyStr)
  | (.other _, _) => .error .eventTagValidationError
  | (.str key, value) =>
    if !fullmatchTagKey key || decide (eventTagMaxKeyBytes < key.length) then
      .error .eventTagValidationError
    else
      match value with
      | .other _ => .error .eventTagValidationError
      | .str value =>
        if !decide (1 ≤ value.length ∧ value.length ≤ 256) ||
            value.contains (.char (Char.ofNat 0)) then
          .error .eventTagValidationError
        else .ok (key, value)

/-- The bytes one pair adds. -/
def tagPairBytes (key value : PyStr) (index : ℕ) : Except PyException ℕ := do
  let k ← encodedLength (dumpsStr key)
  let v ← encodedLength (dumpsStr value)
  return k + 1 + v + if index = 0 then 0 else 1

/-- The loop over the sorted keys, from `encoded_bytes` and the index; it returns the final
`encoded_bytes`. -/
def tagLoop {α : Type} : (encoded index : ℕ) → List (PyObject α × PyObject α) →
    Except PyException ℕ
  | encoded, _, [] => .ok encoded
  | encoded, index, pair :: rest => do
    let (key, value) ← checkTagPair pair
    let added ← PyException.unicodeError.catching (tagPairBytes key value index)
    if eventTagMaxBytes < encoded + added then
      throw .eventTagValidationError
    tagLoop (encoded + added) (index + 1) rest

/-- `validate_event_tags`. -/
def validateTagMapping {α : Type} (foreign : Comparison α)
    (tags : Items (PyObject α) (PyObject α)) : Except PyException Unit := do
  if eventTagMaxEntries < tags.entries.length then
    throw .eventTagValidationError
  let keys ← PyException.typeError.catching (sortedItems foreign tags.entries)
  let _ ← tagLoop 2 0 keys
  return ()

end Correlia
