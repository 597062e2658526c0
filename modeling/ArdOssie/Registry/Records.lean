import ArdOssie.CanonicalHash

/-!
# Registry records

The records of products, tables, columns and mappings.  A record carries the constraints that its validators check.
-/

namespace ArdOssie

/-! ### Identifiers and keys -/

/-- The text has one character for each place, accepted there. -/
def matchesShape : List (Char → Bool) → Text → Bool
  | [], [] => true
  | accepts :: shape, c :: t => accepts c && matchesShape shape t
  | _, _ => false

/-- `[0-9a-f]` -/
def isLowerHex (c : Char) : Bool := ('0' ≤ c && c ≤ '9') || ('a' ≤ c && c ≤ 'f')

/-- `[0-9a-f]{8}-[0-9a-f]{4}-7[0-9a-f]{3}-[89ab][0-9a-f]{3}-[0-9a-f]{12}` -/
def uuid7Shape : List (Char → Bool) :=
  List.replicate 8 isLowerHex ++ [(· == '-')] ++ List.replicate 4 isLowerHex ++ [(· == '-'), (· == '7')] ++
    List.replicate 3 isLowerHex ++ [(· == '-'), (· ∈ ['8', '9', 'a', 'b'])] ++ List.replicate 3 isLowerHex ++
    [(· == '-')] ++ List.replicate 12 isLowerHex

/-- The pattern of the identifiers with a stem. -/
def entityShape (stem : String) : List (Char → Bool) := stem.toList.map (fun s c => c == s) ++ uuid7Shape

/-- An identifier of the registry: a stem and a UUID of version 7. -/
structure EntityId (stem : String) where
  text : Text
  wellFormed : matchesShape (entityShape stem) text = true
  deriving DecidableEq

namespace EntityId

variable {stem : String}

instance : LawfulBEq (EntityId stem) := inferInstance

theorem text_injective : Function.Injective (text : EntityId stem → Text) := by
  rintro ⟨t, h⟩ ⟨t', h'⟩ heq
  cases heq
  rfl

/-- The identifiers are in the order of their texts. -/
instance : LinearOrder (EntityId stem) := LinearOrder.lift' text text_injective

/-- The identifier of a text that matches the pattern. -/
def parse (stem : String) (t : Text) : Option (EntityId stem) :=
  if h : matchesShape (entityShape stem) t = true then some ⟨t, h⟩ else none

@[simp] theorem parse_text (i : EntityId stem) : parse stem i.text = some i := dif_pos i.wellFormed

theorem parse_eq_some {t : Text} {i : EntityId stem} : parse stem t = some i ↔ i.text = t := by
  constructor
  · intro h
    unfold parse at h
    split at h
    · cases h
      rfl
    · cases h
  · rintro rfl
    exact parse_text i

end EntityId

abbrev ProductId := EntityId "prd_"

abbrev TableId := EntityId "tbl_"

abbrev LinkId := EntityId "lnk_"

abbrev ColumnId := EntityId "col_"

abbrev MetricId := EntityId "met_"

abbrev RelationshipId := EntityId "rel_"

/-- `^[a-z0-9]+(?:-[a-z0-9]+)*$` -/
def isProductKey (t : Text) : Bool :=
  (t.splitOn '-').all fun part =>
    !part.isEmpty && part.all fun c => ('a' ≤ c && c ≤ 'z') || ('0' ≤ c && c ≤ '9')

structure ProductKey where
  text : Text
  wellFormed : isProductKey text = true
  deriving DecidableEq

namespace ProductKey

theorem text_injective : Function.Injective text := by
  rintro ⟨t, h⟩ ⟨t', h'⟩ heq
  cases heq
  rfl

instance : LinearOrder ProductKey := LinearOrder.lift' text text_injective

/-- The key of a text that matches the pattern. -/
def parse (t : Text) : Option ProductKey := if h : isProductKey t = true then some ⟨t, h⟩ else none

end ProductKey

/-- `Annotated[int, Field(ge=1, le=999)]` -/
abbrev Version := {n : ℕ // 1 ≤ n ∧ n ≤ 999}

theorem one_isVersion : 1 ≤ 1 ∧ 1 ≤ 999 := by decide

theorem two_isVersion : 1 ≤ 2 ∧ 2 ≤ 999 := by decide

inductive EntityStatus where
  | active
  | retired
  deriving DecidableEq

inductive Operation where
  | create
  | update
  | retire
  deriving DecidableEq

/-! ### Tables -/

/-- A part of a locator: not empty and without a separator. -/
@[ext]
structure LocatorPart where
  text : Text
  nonempty : text ≠ []
  noSeparator : '|' ∉ text

instance : DecidableEq LocatorPart := fun _ _ => decidable_of_iff _ LocatorPart.ext_iff.symm

namespace LocatorPart

def wms : LocatorPart := ⟨"wms".toList, by decide, by decide⟩

def main : LocatorPart := ⟨"main".toList, by decide, by decide⟩

def sales : LocatorPart := ⟨"sales".toList, by decide, by decide⟩

def orders : LocatorPart := ⟨"orders".toList, by decide, by decide⟩

end LocatorPart

structure TableLocator where
  sourceSystemId : LocatorPart
  catalog : LocatorPart
  schemaName : LocatorPart
  tableName : LocatorPart
  deriving DecidableEq

/-- `TableLocator.key` -/
def TableLocator.key (l : TableLocator) : Text :=
  l.sourceSystemId.text ++ '|' :: (l.catalog.text ++ '|' :: (l.schemaName.text ++ '|' :: l.tableName.text))

private theorem split_separator {a b s t : Text} (ha : '|' ∉ a) (hb : '|' ∉ b)
    (h : a ++ '|' :: s = b ++ '|' :: t) : a = b ∧ s = t := by
  induction a generalizing b with
  | nil =>
    cases b with
    | nil => exact ⟨rfl, (List.cons.inj h).2⟩
    | cons c b =>
      have hc : '|' = c := (List.cons.inj h).1
      exact absurd (by rw [hc]; exact List.mem_cons_self) hb
  | cons c a ih =>
    cases b with
    | nil =>
      have hc : c = '|' := (List.cons.inj h).1
      exact absurd (by rw [hc]; exact List.mem_cons_self) ha
    | cons d b =>
      rw [List.cons_append, List.cons_append] at h
      obtain ⟨rfl, hrest⟩ := List.cons.inj h
      simp only [List.mem_cons, not_or] at ha hb
      obtain ⟨rfl, hst⟩ := ih ha.2 hb.2 hrest
      exact ⟨rfl, hst⟩

/-- A locator is determined by its key. -/
theorem TableLocator.key_injective : Function.Injective TableLocator.key := by
  rintro ⟨⟨s, hs, hs'⟩, ⟨c, hc, hc'⟩, ⟨n, hn, hn'⟩, ⟨t, ht, ht'⟩⟩
    ⟨⟨s₁, hs₁, hs₁'⟩, ⟨c₁, hc₁, hc₁'⟩, ⟨n₁, hn₁, hn₁'⟩, ⟨t₁, ht₁, ht₁'⟩⟩ h
  obtain ⟨rfl, h⟩ := split_separator hs' hs₁' h
  obtain ⟨rfl, h⟩ := split_separator hc' hc₁' h
  obtain ⟨rfl, rfl⟩ := split_separator hn' hn₁' h
  rfl

structure ColumnRecord where
  columnId : ColumnId
  name : Text
  aliases : List Text
  status : EntityStatus
  stripped : Text.strip name = name
  nonempty : name ≠ []
  deriving DecidableEq

section Records

variable (platform : Platform)

structure TableRecord where
  tableId : TableId
  locator : TableLocator
  version : Version
  status : EntityStatus
  aliases : List Text
  columns : List ColumnRecord
  schemaHash : Option Sha256
  canonicalHash : Option Sha256
  /-- `validate_columns` -/
  columnIds_nodup : (columns.map ColumnRecord.columnId).Nodup
  columnNames_nodup : (columns.map fun c => platform.casefold c.name).Nodup
  deriving DecidableEq

/-! ### Products -/

/-- A metric or a relationship of a product. -/
structure NamedRecord (stem : String) where
  id : EntityId stem
  name : Text
  aliases : List Text
  status : EntityStatus
  deriving DecidableEq

abbrev MetricRecord := NamedRecord "met_"

abbrev RelationshipRecord := NamedRecord "rel_"

/-- `_validate_named_ids` -/
def NamedIdsUnique {stem : String} (records : List (NamedRecord stem)) : Prop :=
  (records.map NamedRecord.id).Nodup ∧ (records.map fun r => platform.casefold r.name).Nodup

instance {stem : String} (records : List (NamedRecord stem)) : Decidable (NamedIdsUnique platform records) :=
  inferInstanceAs (Decidable (_ ∧ _))

variable {platform} in
theorem namedIdsUnique_nil {stem : String} : NamedIdsUnique platform ([] : List (NamedRecord stem)) :=
  ⟨List.nodup_nil, List.nodup_nil⟩

structure ProductRecord where
  productId : ProductId
  productKey : ProductKey
  version : Version
  status : EntityStatus
  displayName : Option Text
  aliases : List ProductKey
  canonicalHash : Option Sha256
  metrics : List MetricRecord
  relationships : List RelationshipRecord
  /-- `validate_semantic_objects` -/
  metrics_unique : NamedIdsUnique platform metrics
  relationships_unique : NamedIdsUnique platform relationships
  deriving DecidableEq

end Records

/-- The key and the aliases that a product answers to. -/
def ProductRecord.names {platform : Platform} (p : ProductRecord platform) : List ProductKey :=
  p.productKey :: p.aliases

inductive Usage where
  | source
  | output
  | reference
  deriving DecidableEq

structure ProductTableRef where
  linkId : LinkId
  productId : ProductId
  tableId : TableId
  tableVersion : Version
  usage : Usage
  required : Bool
  semanticDataset : Option Text
  deriving DecidableEq

end ArdOssie
