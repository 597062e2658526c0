import ArdOssie.Adapters.Filesystem
import ArdOssie.Registry.Records

/-!
# Writes that are allowed

The places in a repository that the services of a product may write: its approved intake, what processing writes back,
and what the synchronisation with the base may reset.
-/

namespace ArdOssie

/-- The characters of a product key. -/
theorem char_of_productKey (key : ProductKey) {c : Char} (hc : c ∈ key.text) :
    c = '-' ∨ (('a' ≤ c && c ≤ 'z') || ('0' ≤ c && c ≤ '9')) = true := by
  have hjoin : ['-'].intercalate (key.text.splitOn '-') = key.text := List.intercalate_splitOn '-'
  rw [← hjoin] at hc
  rcases mem_intercalate hc with rfl | ⟨part, hpart, hmem⟩
  · exact Or.inl rfl
  · have hall := key.wellFormed
    unfold isProductKey at hall
    have hpart := List.all_eq_true.1 hall part hpart
    rw [Bool.and_eq_true, List.all_eq_true] at hpart
    exact Or.inr (hpart.2 c hmem)

/-! ### Places -/

section Places

variable (productKey : ProductKey)

/-- A path below `generated` or `quality` of the product. -/
def isOutputPath (parts : List Text) : Bool :=
  match parts with
  | root :: key :: area :: _ :: _ =>
    root = "products".toList && key = productKey.text && area ∈ ["generated".toList, "quality".toList]
  | _ => false

/-- The parts of `RepositoryPaths.is_writeback_allowed` -/
def isWritebackPath (parts : List Text) : Bool :=
  (2 ≤ parts.length && parts.head? = some "registry".toList) ||
    parts = ["products".toList, productKey.text, "product.yaml".toList] || isOutputPath productKey parts

/-- The parts of `RepositoryPaths.is_intake_write_allowed` -/
def isIntakePath (parts : List Text) : Bool :=
  match parts with
  | root :: key :: name :: rest =>
    root = "products".toList && key = productKey.text &&
      if rest = [] then name ∈ ["product.yaml".toList, "intake-manifest.json".toList] else name = "sources".toList
  | _ => false

/-- The parts of `RepositoryPaths.is_base_sync_reset_allowed` -/
def isResetPath (productId : ProductId) (tableIds : List TableId) (parts : List Text) : Bool :=
  isOutputPath productKey parts || match parts with
    | [root, kind, name] => root = "registry".toList &&
        if kind = "indexes".toList then name ∈ ["product-keys.json".toList, "table-locators.json".toList]
        else if kind = "products".toList ∨ kind = "mappings".toList then name = productId.text ++ ".json".toList
        else kind = "tables".toList && decide (".json".toList <:+ name) &&
          name.take (name.length - 5) ∈ tableIds.map EntityId.text
    | _ => false

end Places

namespace Checkout

variable (checkout : Checkout) (productKey : ProductKey)

/-- `RepositoryPaths.is_writeback_allowed` -/
def isWritebackAllowed (path : FilePath) : Workflow Bool := do
  let parts ← checkout.resolveWrite path
  pure (isWritebackPath productKey parts)

/-- `RepositoryPaths.is_intake_write_allowed` -/
def isIntakeWriteAllowed (path : FilePath) : Workflow Bool := do
  let parts ← checkout.resolveWrite path
  pure (isIntakePath productKey parts)

/-- `RepositoryPaths.is_base_sync_reset_allowed` -/
def isBaseSyncResetAllowed (productId : ProductId) (tableIds : List TableId) (path : FilePath) : Workflow Bool := do
  let parts ← checkout.resolveWrite path
  pure (isResetPath productKey productId tableIds parts)

end Checkout

/-! ### Shapes -/

section Shapes

variable {productKey : ProductKey} {parts : List Text}

/-- An intake path is one of two files of the product, or lies below its sources. -/
theorem isIntakePath_cases (h : isIntakePath productKey parts = true) :
    parts = ["products".toList, productKey.text, "product.yaml".toList] ∨
      parts = ["products".toList, productKey.text, "intake-manifest.json".toList] ∨
      ["products".toList, productKey.text, "sources".toList] <+: parts ∧
        parts ≠ ["products".toList, productKey.text, "sources".toList] := by
  unfold isIntakePath at h
  split at h
  · rename_i root key name rest
    rw [Bool.and_eq_true, Bool.and_eq_true, decide_eq_true_eq, decide_eq_true_eq] at h
    obtain ⟨⟨rfl, rfl⟩, h⟩ := h
    split at h
    · rename_i hrest
      cases hrest
      rcases List.mem_cons.1 (of_decide_eq_true h) with rfl | hname
      · exact Or.inl rfl
      · rw [List.mem_singleton.1 hname]
        exact Or.inr (Or.inl rfl)
    · rename_i hrest
      cases of_decide_eq_true h
      refine Or.inr (Or.inr ⟨⟨rest, rfl⟩, fun heq => hrest ?_⟩)
      injection heq with _ heq
      injection heq with _ heq
      injection heq
  · cases h

/-- An output path lies below one of the two folders. -/
theorem isOutputPath_cases (h : isOutputPath productKey parts = true) :
    ∃ area ∈ ["generated".toList, "quality".toList], ["products".toList, productKey.text, area] <+: parts := by
  unfold isOutputPath at h
  split at h
  · rename_i root key area name rest
    rw [Bool.and_eq_true, Bool.and_eq_true, decide_eq_true_eq, decide_eq_true_eq, decide_eq_true_eq] at h
    obtain ⟨⟨rfl, rfl⟩, harea⟩ := h
    exact ⟨area, harea, name :: rest, rfl⟩
  · cases h

/-- A path that may be reset is in the registry or an output of the product. -/
theorem isResetPath_cases {productId : ProductId} {tableIds : List TableId}
    (h : isResetPath productKey productId tableIds parts = true) :
    isOutputPath productKey parts = true ∨ parts.head? = some "registry".toList := by
  unfold isResetPath at h
  rw [Bool.or_eq_true] at h
  refine h.imp_right fun h => ?_
  split at h
  · rw [Bool.and_eq_true] at h
    exact congrArg some (of_decide_eq_true h.1)
  · cases h

end Shapes

end ArdOssie
