import ArdOssie.Application.Contracts

/-!
# Strings of Python

A string of Python holds characters and lone surrogates, and only a string without lone surrogates has a UTF-8 encoding.
The values that `json.loads` returns hold such strings.
-/

namespace ArdOssie

inductive PyChar where
  | char (c : Char)
  /-- A code point from `0xd800` on. -/
  | surrogate (k : Fin 2048)
  deriving DecidableEq

abbrev PyStr := List PyChar

/-- `ord` -/
def PyChar.codePoint : PyChar → ℕ
  | .char c => c.toNat
  | .surrogate k => 0xd800 + k

namespace PyStr

/-- The string of a text. -/
def ofText (t : Text) : PyStr := t.map .char

/-- `str.encode`: the text that the bytes spell; a lone surrogate has no bytes. -/
def encode : PyStr → Option Text
  | [] => some []
  | .char c :: s => (encode s).map (c :: ·)
  | .surrogate _ :: _ => none

@[simp] theorem encode_ofText (t : Text) : (ofText t).encode = some t := by
  induction t with
  | nil => rfl
  | cons c t ih =>
    show (encode (ofText t)).map (c :: ·) = _
    rw [ih]
    rfl

theorem encode_eq_some {s : PyStr} {t : Text} : s.encode = some t ↔ s = ofText t := by
  refine ⟨fun h => ?_, fun h => h ▸ encode_ofText t⟩
  induction s generalizing t with
  | nil =>
    cases h
    rfl
  | cons c s ih =>
    cases c with
    | char c =>
      obtain ⟨u, hu, rfl⟩ := Option.map_eq_some_iff.1 h
      rw [ih hu]
      rfl
    | surrogate k => cases h

theorem ofText_injective : Function.Injective ofText := fun t u h =>
  Option.some_inj.1 ((encode_ofText t).symm.trans ((congrArg encode h).trans (encode_ofText u)))

@[simp] theorem ofText_inj {t u : Text} : ofText t = ofText u ↔ t = u := ofText_injective.eq_iff

@[simp] theorem mem_ofText {c : Char} {t : Text} : PyChar.char c ∈ ofText t ↔ c ∈ t := by
  simp [ofText]

@[simp] theorem length_ofText (t : Text) : (ofText t).length = t.length := List.length_map _

@[simp] theorem ofText_eq_nil {t : Text} : ofText t = [] ↔ t = [] := List.map_eq_nil_iff

@[simp] theorem count_ofText (c : Char) (t : Text) : (ofText t).count (.char c) = t.count c :=
  List.count_map_of_injective t PyChar.char (fun _ _ h => PyChar.char.inj h) c

end PyStr

inductive PyJson where
  | null
  | bool (value : Bool)
  | int (value : ℤ)
  | float (value : ℚ)
  | str (value : PyStr)
  | arr (items : List PyJson)
  | obj (fields : List (PyStr × PyJson))

namespace PyJson

/-- A text as a value. -/
def ofText (t : Text) : PyJson := .str (.ofText t)

/-- An optional value, `None` when it is absent. -/
def opt {α : Type} (f : α → PyJson) : Option α → PyJson
  | none => null
  | some a => f a

def keyOf (key : String) : PyStr := .ofText key.toList

/-- An object with the given field names. -/
def record (fields : List (String × PyJson)) : PyJson := obj (fields.map fun p => (keyOf p.1, p.2))

/-- `value.get(key)` -/
def field (key : String) : PyJson → PyJson
  | obj fields => (fields.lookup (keyOf key)).getD null
  | _ => null

/-- `value == text` -/
def isText (t : Text) : PyJson → Bool
  | str s => s = .ofText t
  | _ => false

/-- `isinstance(value, dict)` -/
def isObject : PyJson → Bool
  | obj _ => true
  | _ => false

/-- An object whose keys are the given ones. -/
def hasKeys (keys : List String) : PyJson → Bool
  | obj fields => fields.all (fun f => f.1 ∈ keys.map keyOf) && keys.all fun k => keyOf k ∈ fields.map Prod.fst
  | _ => false

theorem hasKeys_record (fields : List (String × PyJson)) : (record fields).hasKeys (fields.map Prod.fst) = true := by
  simp only [hasKeys, record, Bool.and_eq_true, List.all_eq_true, decide_eq_true_eq, List.map_map]
  refine ⟨fun f hf => ?_, fun k hk => ?_⟩
  · obtain ⟨p, hp, rfl⟩ := List.mem_map.1 hf
    exact List.mem_map.2 ⟨p, hp, rfl⟩
  · obtain ⟨p, hp, rfl⟩ := List.mem_map.1 hk
    exact List.mem_map.2 ⟨p, hp, rfl⟩

theorem field_record_cons (key k : String) (v : PyJson) (fields : List (String × PyJson)) :
    (record ((k, v) :: fields)).field key = if key = k then v else (record fields).field key := by
  have hkeys : (keyOf key == keyOf k) = decide (key = k) := by
    rw [Bool.eq_iff_iff, beq_iff_eq, decide_eq_true_eq, keyOf, keyOf, PyStr.ofText_inj, String.toList_inj]
  show (List.lookup (keyOf key) ((keyOf k, v) :: fields.map fun p => (keyOf p.1, p.2))).getD null = _
  rw [List.lookup_cons, hkeys]
  by_cases h : key = k
  · rw [if_pos h, decide_eq_true h]
    rfl
  · rw [if_neg h, decide_eq_false h]
    rfl

/-- A JSON string, non-ASCII characters and lone surrogates unescaped. -/
def quote (s : PyStr) : PyStr :=
  .char '"' :: (s.flatMap (fun c => match c with
    | .char c => PyStr.ofText (Json.escapeChar c)
    | .surrogate k => [.surrogate k]) ++ [.char '"'])

section Dumps

variable (platform : Platform)

mutual

/-- `json.dumps(value, ensure_ascii=False, separators=(",", ":"), sort_keys=True)` -/
def dumps : PyJson → PyStr
  | null => keyOf "null"
  | bool b => if b then keyOf "true" else keyOf "false"
  | int n => .ofText ((Json.int n).dumps platform)
  | float q => .ofText (platform.floatRepr q)
  | str s => quote s
  | arr items => .char '[' :: (((dumpsItems items).intersperse [.char ',']).flatten ++ [.char ']'])
  | obj fields =>
    .char '{' :: ((((sortBy (fun p => p.1.map PyChar.codePoint) (dumpsFields fields)).map fun p =>
      quote p.1 ++ .char ':' :: p.2).intersperse [.char ',']).flatten ++ [.char '}'])

def dumpsItems : List PyJson → List PyStr
  | [] => []
  | item :: items => dumps item :: dumpsItems items

def dumpsFields : List (PyStr × PyJson) → List (PyStr × PyStr)
  | [] => []
  | field :: fields => dumpsField field :: dumpsFields fields

def dumpsField : PyStr × PyJson → PyStr × PyStr
  | (key, value) => (key, dumps value)

end

end Dumps

/-- The elements of a list. -/
def items : PyJson → List PyJson
  | arr values => values
  | _ => []

/-- `isinstance(value, list)` -/
def isArray : PyJson → Bool
  | arr _ => true
  | _ => false

/-- What the hash and the equality of a hashable value depend on; a boolean is a number of Python. -/
def hashKey : PyJson → Option (Option (ℚ ⊕ PyStr))
  | null => some none
  | bool b => some (some (.inl (if b then 1 else 0)))
  | int n => some (some (.inl n))
  | float q => some (some (.inl q))
  | str s => some (some (.inr s))
  | arr _ => none
  | obj _ => none

/-- The value of a number that is no boolean. -/
def number : PyJson → Option ℚ
  | int n => some n
  | float q => some q
  | _ => none

/-- A value of a `float` field, as a validation of the record reads it; `read` reads texts. -/
def floatField (read : Text → Option ℚ) : PyJson → Option ℚ
  | int n => some n
  | float q => some q
  | bool b => some (if b then 1 else 0)
  | str s => s.encode.bind read
  | _ => none

/-- A string. -/
def string : PyJson → Option PyStr
  | str s => some s
  | _ => none

/-- A string as a validation of the record takes it, without lone surrogates. -/
def text (value : PyJson) : Option Text := value.string.bind PyStr.encode

theorem text_eq_some {value : PyJson} {t : Text} : value.text = some t ↔ value = ofText t := by
  cases value <;> simp [text, string, ofText, PyStr.encode_eq_some]

@[simp] theorem text_ofText (t : Text) : (ofText t).text = some t := text_eq_some.2 rfl

theorem isText_eq_true {value : PyJson} {t : Text} : value.isText t = true ↔ value = ofText t := by
  cases value <;> simp [isText, ofText]

end PyJson

end ArdOssie
