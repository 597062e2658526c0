import ArdOssie.Library.Lists
import ArdOssie.Text
import Mathlib.Data.Char
import Mathlib.Data.List.Lex

/-!
# Canonical hashes

The canonical hash of a value is the digest of its JSON text with sorted keys, after the strings are normalised and
the volatile fields are dropped.
-/

namespace ArdOssie

/-- A JSON value. -/
inductive Json where
  | null
  | bool (value : Bool)
  | int (value : ℤ)
  | float (value : ℚ)
  | str (value : Text)
  | arr (items : List Json)
  | obj (fields : List (Text × Json))

namespace Json

/-- A string literal of the program as a value. -/
def lit (s : String) : Json := str s.toList

/-- A natural number as a value. -/
def nat (n : ℕ) : Json := int n

/-- An optional value, `null` when it is absent. -/
def opt {α : Type} (f : α → Json) : Option α → Json
  | none => null
  | some a => f a

/-- An object with the given field names. -/
def record (fields : List (String × Json)) : Json := obj (fields.map fun p => (p.1.toList, p.2))

/-- The JSON escape of a character, non-ASCII characters unescaped. -/
def escapeChar (c : Char) : Text :=
  if c = '"' then ['\\', '"']
  else if c = '\\' then ['\\', '\\']
  else if c = '\n' then ['\\', 'n']
  else if c = '\r' then ['\\', 'r']
  else if c = '\t' then ['\\', 't']
  else if c.toNat = 8 then ['\\', 'b']
  else if c.toNat = 12 then ['\\', 'f']
  else if c.toNat < 32 then "\\u".toList ++ Text.hex 4 c.toNat
  else [c]

/-- A JSON string. -/
def quote (t : Text) : Text := '"' :: (t.flatMap escapeChar ++ ['"'])

/-- Join texts with a comma. -/
def commaJoin (items : List Text) : Text := (items.intersperse [',']).flatten

section Dumps

variable (platform : Platform)

mutual

/-- `json.dumps(value, ensure_ascii=False, separators=(",", ":"), sort_keys=True)` -/
def dumps : Json → Text
  | null => "null".toList
  | bool b => if b then "true".toList else "false".toList
  | int n => if n < 0 then '-' :: Text.decimal n.natAbs else Text.decimal n.natAbs
  | float q => platform.floatRepr q
  | str t => quote t
  | arr items => '[' :: (commaJoin (dumpsItems items) ++ [']'])
  | obj fields =>
    '{' :: (commaJoin ((sortBy Prod.fst (dumpsFields fields)).map fun p => quote p.1 ++ ':' :: p.2) ++ ['}'])

def dumpsItems : List Json → List Text
  | [] => []
  | item :: items => dumps item :: dumpsItems items

def dumpsFields : List (Text × Json) → List (Text × Text)
  | [] => []
  | field :: fields => dumpsField field :: dumpsFields fields

def dumpsField : Text × Json → Text × Text
  | (key, value) => (key, dumps value)

end

end Dumps

/-- `VOLATILE_FIELDS` -/
def volatileFields : List Text :=
  ["actions_run_id", "commit_sha", "generated_at", "llm_response_id", "provenance_collected_at"].map String.toList

/-- Set a field of an object; a field with the same key keeps its place. -/
def setField (key : Text) (value : Json) : List (Text × Json) → List (Text × Json)
  | [] => [(key, value)]
  | field :: fields => if field.1 = key then (key, value) :: fields else field :: setField key value fields

section Normalize

variable (platform : Platform) (excluded : List Text)

mutual

/-- `_normalize` -/
def normalize : Json → Json
  | str t => str (platform.nfc t)
  | arr items => arr (normalizeItems items)
  | obj fields => obj (normalizeFields fields [])
  | v => v

def normalizeItems : List Json → List Json
  | [] => []
  | item :: items => normalize item :: normalizeItems items

def normalizeFields : List (Text × Json) → List (Text × Json) → List (Text × Json)
  | [], done => done
  | field :: fields, done =>
    normalizeFields fields
      (if field.1 ∈ excluded then done else setField (platform.nfc field.1) (normalizeField field).2 done)

def normalizeField : Text × Json → Text × Json
  | (key, value) => (key, normalize value)

end

end Normalize

end Json

/-- `canonical_hash` -/
def canonicalHash (platform : Platform) (value : Json) : Sha256 :=
  sha256 ((value.normalize platform Json.volatileFields).dumps platform)

end ArdOssie
