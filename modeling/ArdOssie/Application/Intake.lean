import ArdOssie.Adapters.PathPolicies
import ArdOssie.Adapters.Workspace
import ArdOssie.Registry.Records

/-!
# Approved intakes

The intake of an approved issue writes the attachments, the product config and a manifest into the workspace.  A later
run for the same issue prepares the intake again in an empty staging directory and compares what it finds in the
workspace with it.
-/

namespace ArdOssie

/-! ### Records -/

inductive AttachmentRole where
  | productHtml
  | semanticDocument
  | dictionaryExcel
  deriving DecidableEq

namespace AttachmentRole

def all : List AttachmentRole := [productHtml, semanticDocument, dictionaryExcel]

/-- The suffixes that `_validate_extension` allows. -/
def suffixes : AttachmentRole → List Text
  | productHtml => [".html".toList, ".htm".toList]
  | semanticDocument => [".docx".toList, ".pdf".toList]
  | dictionaryExcel => [".xlsx".toList]

/-- The folder below `sources`. -/
def folderName : AttachmentRole → Text
  | productHtml => "product-info".toList
  | semanticDocument => "semantic".toList
  | dictionaryExcel => "dictionary".toList

/-- `_canonical_filename`, and the fixed name of the dictionary. -/
def canonicalFilename (suffix : Text) : AttachmentRole → Text
  | productHtml => "product".toList ++ suffix
  | semanticDocument => "semantic".toList ++ suffix
  | dictionaryExcel => "dictionary.xlsx".toList

end AttachmentRole

/-- An attachment with the suffix `Path(filename).suffix.lower()` of its name. -/
structure IntakeAttachment (role : AttachmentRole) where
  filename : Text
  url : Text
  suffix : Text
  allowed : suffix ∈ role.suffixes

/-- `IssueIntake` -/
structure IssueIntake where
  operation : Operation
  productKey : ProductKey
  productId : Option ProductId
  version : Version
  displayName : Text
  description : Option Text
  changesetId : Option Text
  attachments : (role : AttachmentRole) → IntakeAttachment role
  supported : operation ≠ .retire
  create_new : operation = .create → productId = none
  update_existing : operation = .update → productId ≠ none

structure DownloadedAttachment where
  role : AttachmentRole
  filename : Text
  relativePath : Text
  sha256 : Sha256
  sizeBytes : ℕ
  sourceUrl : Text

structure IntakeManifest where
  issueNumber : ℕ
  productKey : ProductKey
  productId : ProductId
  version : Version
  files : List DownloadedAttachment

/-- What an intake uses: the codecs of its files, and the attachments, which download to the same bytes every time. -/
structure IntakeEnvironment where
  links : LinkedPaths
  /-- `yaml.safe_dump`, and `yaml.safe_load` of a text file; a text that is not valid has no value. -/
  dumpConfig : Json → List ℕ
  loadConfig : List ℕ → Option Json
  /-- The JSON of a manifest, and `IntakeManifest.model_validate_json`. -/
  dumpManifest : IntakeManifest → List ℕ
  loadManifest : List ℕ → Option IntakeManifest
  download : {role : AttachmentRole} → IntakeAttachment role → PyResult (List ℕ)

/-- `hashlib.sha256(content).hexdigest()` -/
def sha256Bytes (content : List ℕ) : Sha256 := ⟨Fin.ofNat _ (Sha256.digest content)⟩

def Operation.text : Operation → String
  | .create => "create"
  | .update => "update"
  | .retire => "retire"

/-! ### Preparing -/

namespace IssueIntake

variable (intake : IssueIntake)

def productRoot : List Text := ["products".toList, intake.productKey.text]

def configPath : List Text := intake.productRoot ++ ["product.yaml".toList]

def manifestPath : List Text := intake.productRoot ++ ["intake-manifest.json".toList]

def sources : List Text := intake.productRoot ++ ["sources".toList]

/-- The place of an attachment below the product. -/
def relativeDestination (role : AttachmentRole) : List Text :=
  ["sources".toList, role.folderName, role.canonicalFilename (intake.attachments role).suffix]

def folder (role : AttachmentRole) : List Text := intake.productRoot ++ ["sources".toList, role.folderName]

def destination (role : AttachmentRole) : List Text := intake.productRoot ++ intake.relativeDestination role

/-- The record of a download. -/
def downloaded (role : AttachmentRole) (content : List ℕ) : DownloadedAttachment where
  role := role
  filename := (intake.attachments role).filename
  relativePath := ['/'].intercalate (intake.relativeDestination role)
  sha256 := sha256Bytes content
  sizeBytes := content.length
  sourceUrl := (intake.attachments role).url

/-- The config that is written: the existing one with the fields of the issue. -/
def mergedConfig (productId : ProductId) (existing : List (Text × Json)) : List (Text × Json) :=
  let set (key : String) (value : Json) (fields : List (Text × Json)) := Json.setField key.toList value fields
  let config := existing
    |> set "operation" (.lit intake.operation.text)
    |> set "product_id" (.str productId.text)
    |> set "product_key" (.str intake.productKey.text)
    |> set "version" (.nat intake.version)
    |> set "display_name" (.str intake.displayName)
    |> set "description" (match intake.description with
      | some description => .str description
      | none => (Json.obj existing).field "description")
    |> set "changeset_id" (Json.opt Json.str intake.changesetId)
    |> set "tables" ((existing.lookup "tables".toList).getD (.arr []))
  if existing = [] then config else set "base_version" ((Json.obj existing).field "version") config

/-- The manifest that is written. -/
def manifest (issueNumber : ℕ) (productId : ProductId) (files : List DownloadedAttachment) : IntakeManifest :=
  ⟨issueNumber, intake.productKey, productId, intake.version, files⟩

variable (env : IntakeEnvironment)

/-- The config of the product that is updated. -/
def existingConfig (productId : ProductId) (w : Workspace) : PyResult (List (Text × Json)) :=
  if intake.operation = .update then do
    raiseIf (w.isFile env.links intake.configPath = false) (.valueError "UPDATE_PRODUCT_CONFIG_NOT_FOUND")
    let content ← w.readBytes env.links intake.configPath
    match env.loadConfig content with
    | none => .error (.valueError "YAMLError")
    | some (.obj fields) => do
      raiseIf (((Json.obj fields).field "product_id").isText productId.text = false)
        (.valueError "UPDATE_PRODUCT_ID_MISMATCH")
      raiseIf (((Json.obj fields).field "product_key").isText intake.productKey.text = false)
        (.valueError "UPDATE_PRODUCT_KEY_MISMATCH")
      pure fields
    | some _ => .error (.valueError "UPDATE_PRODUCT_CONFIG_INVALID")
  else pure []

/-- `download_attachment` to the destination of the role. -/
def downloadAttachment (role : AttachmentRole) (w : Workspace) : PyResult (DownloadedAttachment × Workspace) := do
  let w ← w.makeDirs env.links (intake.folder role)
  let content ← env.download (intake.attachments role)
  let w ← w.replaceFile env.links (intake.destination role) content
  pure (intake.downloaded role content, w)

def downloadAttachments : List AttachmentRole → Workspace → PyResult (List DownloadedAttachment × Workspace)
  | [], w => pure ([], w)
  | role :: roles, w => do
    let (record, w) ← intake.downloadAttachment env role w
    let (records, w) ← downloadAttachments roles w
    pure (record :: records, w)

/-- The other files in the folders of the destinations are removed. -/
def removePrevious : List AttachmentRole → Workspace → PyResult Workspace
  | [], w => pure w
  | role :: roles, w => do
    let w ← w.removeFiles env.links (intake.folder role) (intake.destination role)
    removePrevious roles w

/-- `prepare_issue_event` with the identifier of a new product: the manifest and the workspace it leaves. -/
def prepareIssueEvent (newId : ProductId) (issueNumber : ℕ) (w : Workspace) :
    PyResult (IntakeManifest × Workspace) := do
  let productId := intake.productId.getD newId
  let existing ← intake.existingConfig env productId w
  let (files, w) ← intake.downloadAttachments env AttachmentRole.all w
  let w ← intake.removePrevious env AttachmentRole.all w
  let w ← w.makeDirs env.links intake.productRoot
  let w ← w.writeBytes env.links intake.configPath (env.dumpConfig (.obj (intake.mergedConfig productId existing)))
  let manifest := intake.manifest issueNumber productId files
  let w ← w.writeBytes env.links intake.manifestPath (env.dumpManifest manifest)
  pure (manifest, w)

/-! ### Recognising -/

/-- The content of a file that has passed the policy. -/
def contentAt (w : Workspace) (p : List Text) : Service (List ℕ) :=
  match w.entry p with
  | some (.file content) => .ok content
  | _ => .error (.valueError Workspace.osError)

private def metadataInvalid : ServiceError :=
  .workflow (.security "ISSUE_EXISTING_INTAKE_INVALID" "existing intake metadata is malformed".toList)

/-- The value of a metadata file. -/
def metadataAt {α : Type} (load : List ℕ → Option α) (w : Workspace) (p : List Text) : Service α :=
  match w.entry p with
  | some (.file content) => (load content).elim (.error metadataInvalid) .ok
  | _ => .error metadataInvalid

/-- `value == text`, where `text` may be `None` -/
def isOptText : Option Text → Json → Bool
  | none, .null => true
  | some t, v => v.isText t
  | none, _ => false

/-- The config has the values of the issue. -/
def configMatches (productId : ProductId) (config : Json) : Bool :=
  (config.field "operation").isText intake.operation.text.toList && (config.field "product_id").isText productId.text &&
    (config.field "product_key").isText intake.productKey.text && (config.field "version").isNat intake.version &&
    (config.field "display_name").isText intake.displayName && isOptText intake.description (config.field "description") &&
    isOptText intake.changesetId (config.field "changeset_id")

/-- One recorded source is the approved attachment: its path. -/
def checkSource (w : Workspace) (canonicalFiles : Dict AttachmentRole DownloadedAttachment) (staging : Workspace)
    (item : DownloadedAttachment) : Service (List Text) := do
  let relative := FilePath.ofText item.relativePath
  (failIf (relative.absolute = true ∨ "..".toList ∈ relative.parts ∨ relative.parts = [])
    (.security "ISSUE_EXISTING_SOURCE_PATH_UNSAFE"
      "existing intake manifest contains an unsafe source path".toList)).mapError .workflow
  let source ← (w.checkout.resolveRead ⟨false, intake.productRoot ++ relative.parts⟩).mapError .workflow
  let expected := intake.attachments item.role
  let content ← contentAt w source
  let canonicalItem ← (Dict.getItem canonicalFiles item.role).mapError .valueError
  let canonicalPath := FilePath.ofText canonicalItem.relativePath
  let canonicalContent ←
    (staging.readBytes env.links (intake.productRoot ++ canonicalPath.parts)).mapError .valueError
  (failIf (relative.parts.head? ≠ some "sources".toList ∨ relative ≠ canonicalPath ∨ item.sourceUrl ≠ expected.url ∨
      canonicalItem.sourceUrl ≠ expected.url ∨ item.filename ≠ expected.filename ∨
      canonicalItem.filename ≠ expected.filename ∨ item.sizeBytes ≠ content.length ∨
      item.sha256 ≠ sha256Bytes content ∨ canonicalItem.sha256 ≠ sha256Bytes canonicalContent ∨
      item.sha256 ≠ canonicalItem.sha256 ∨ content ≠ canonicalContent)
    (.security "ISSUE_EXISTING_SOURCE_MISMATCH"
      "existing source does not match its approved attachment".toList)).mapError .workflow
  pure source

/-- `source_root.rglob("*")`, the files and links of it. -/
def sourceTree (w : Workspace) (sourceRoot : List Text) : List (List Text) :=
  w.paths.filter fun p => sourceRoot <+: p ∧ p ≠ sourceRoot ∧
    (w.checkout.isFile p = true ∨ w.entry p = some .symlink)

/-- `_validate_existing_intake` -/
def validateExistingIntake (issueNumber : ℕ) (w : Workspace) (canonical : IntakeManifest) (staging : Workspace) :
    Service IntakeManifest := do
  let manifestPath ← (w.checkout.resolveRead ⟨false, intake.manifestPath⟩).mapError .workflow
  let manifest ← metadataAt env.loadManifest w manifestPath
  let configPath ← (w.checkout.resolveRead ⟨false, intake.configPath⟩).mapError .workflow
  let config ← metadataAt env.loadConfig w configPath
  (failIf (config.isObject = false)
    (.security "ISSUE_EXISTING_INTAKE_INVALID" "existing product config is not a mapping".toList)).mapError .workflow
  (failIf (intake.configMatches (intake.productId.getD manifest.productId) config = false)
    (.security "ISSUE_EXISTING_CONFIG_MISMATCH"
      "existing product config does not match approved issue input".toList)).mapError .workflow
  (failIf (manifest.issueNumber ≠ issueNumber ∨ manifest.productKey ≠ intake.productKey ∨
      manifest.version ≠ intake.version ∨ ∃ productId ∈ intake.productId, manifest.productId ≠ productId)
    (.security "ISSUE_EXISTING_MANIFEST_MISMATCH"
      "existing intake manifest does not match approved issue input".toList)).mapError .workflow
  (failIf ((∃ role ∈ AttachmentRole.all, role ∉ manifest.files.map DownloadedAttachment.role) ∨
      ∃ role ∈ AttachmentRole.all, role ∉ canonical.files.map DownloadedAttachment.role)
    (.security "ISSUE_EXISTING_MANIFEST_MISMATCH"
      "existing intake manifest has an unexpected attachment set".toList)).mapError .workflow
  let canonicalFiles := Dict.ofList (canonical.files.map fun item => (item.role, item))
  let recorded ← manifest.files.mapM (intake.checkSource env w canonicalFiles staging)
  let sourceRoot ← (w.checkout.resolveRead ⟨false, intake.sources⟩).mapError .workflow
  let actual ← (sourceTree w sourceRoot).mapM fun p =>
    (w.checkout.resolveRead ⟨true, w.root ++ p⟩).mapError .workflow
  (failIf (¬ ((∀ p ∈ actual, p ∈ recorded) ∧ ∀ p ∈ recorded, p ∈ actual))
    (.security "ISSUE_EXISTING_SOURCE_SET_MISMATCH"
      "existing source tree differs from its intake manifest".toList)).mapError .workflow
  pure manifest

/-- A new directory. -/
def emptyStaging (root : List Text) (hroot : ProperPath root) : Workspace where
  root := root
  entry _ := none
  paths := []
  complete _ h := absurd rfl h
  root_proper := hroot
  names_proper _ h := absurd rfl h

/-- The config of the product to update is copied into the staging directory. -/
def stageConfig (w staging : Workspace) : Service Workspace :=
  if intake.operation = .update then do
    let staging ← (staging.makeDirs env.links intake.productRoot).mapError .valueError
    let source ← (w.checkout.resolveRead ⟨false, intake.configPath⟩).mapError .workflow
    let content ← contentAt w source
    (staging.writeBytes env.links intake.configPath content).mapError .valueError
  else pure staging

/-- `prepare_existing_intake` -/
def prepareExistingIntake (newId : ProductId) (issueNumber : ℕ) (w : Workspace) (stagingRoot : List Text)
    (hroot : ProperPath stagingRoot) : Service IntakeManifest := do
  let staging ← intake.stageConfig env w (emptyStaging stagingRoot hroot)
  let (canonical, staging) ← (intake.prepareIssueEvent env newId issueNumber staging).mapError .valueError
  intake.validateExistingIntake env issueNumber w canonical staging

/-! ### Paths of an intake -/

variable {intake}

theorem folder_injective {role role' : AttachmentRole} (h : intake.folder role = intake.folder role') :
    role = role' := by
  have hname : role.folderName = role'.folderName := by
    unfold folder productRoot at h
    injection h with _ h
    injection h with _ h
    injection h with _ h
    injection h
  revert hname
  cases role <;> cases role' <;> decide

theorem destination_eq (role : AttachmentRole) : intake.destination role =
    intake.folder role ++ [role.canonicalFilename (intake.attachments role).suffix] := rfl

theorem dropLast_destination (role : AttachmentRole) : (intake.destination role).dropLast = intake.folder role := by
  rw [destination_eq, List.dropLast_concat]

theorem destination_injective {role role' : AttachmentRole} (h : intake.destination role = intake.destination role') :
    role = role' := by
  have hfolder := congrArg List.dropLast h
  rw [dropLast_destination, dropLast_destination] at hfolder
  exact folder_injective hfolder

theorem sources_prefix_folder (role : AttachmentRole) : intake.sources <+: intake.folder role :=
  ⟨[role.folderName], rfl⟩

theorem sources_prefix_destination (role : AttachmentRole) : intake.sources <+: intake.destination role :=
  ⟨[role.folderName, role.canonicalFilename (intake.attachments role).suffix], rfl⟩

private def folderParts : List Text := ["sources", "product-info", "semantic", "dictionary"].map String.toList

private def fileParts : List Text :=
  ["product.html", "product.htm", "semantic.docx", "semantic.pdf", "dictionary.xlsx"].map String.toList

private theorem canonicalFilename_mem (role : AttachmentRole) :
    role.canonicalFilename (intake.attachments role).suffix ∈ fileParts := by
  have hsuffix := (intake.attachments role).allowed
  generalize (intake.attachments role).suffix = suffix at hsuffix
  cases role with
  | productHtml =>
    have hcases : suffix = ".html".toList ∨ suffix = ".htm".toList := by
      simpa [AttachmentRole.suffixes] using hsuffix
    rcases hcases with rfl | rfl
    · decide
    · decide
  | semanticDocument =>
    have hcases : suffix = ".docx".toList ∨ suffix = ".pdf".toList := by
      simpa [AttachmentRole.suffixes] using hsuffix
    rcases hcases with rfl | rfl
    · decide
    · decide
  | dictionaryExcel => exact List.mem_map.2 ⟨"dictionary.xlsx", by decide, rfl⟩

/-- The parts below the product are plain names. -/
private theorem plain_relativeDestination (role : AttachmentRole) : ∀ part ∈ intake.relativeDestination role,
    (part ≠ [] ∧ '/' ∉ part ∧ part ≠ ['.']) ∧ part ≠ "..".toList ∧ '\x00' ∉ part := by
  have hplain : ∀ part ∈ folderParts ++ fileParts,
      (part ≠ [] ∧ '/' ∉ part ∧ part ≠ ['.']) ∧ part ≠ "..".toList ∧ '\x00' ∉ part := by decide
  intro part hpart
  refine hplain part ?_
  unfold relativeDestination at hpart
  simp only [List.mem_cons, List.not_mem_nil, or_false] at hpart
  rcases hpart with rfl | rfl | rfl
  · exact List.mem_append_left _ (by decide)
  · refine List.mem_append_left _ ?_
    cases role <;> decide
  · exact List.mem_append_right _ (canonicalFilename_mem role)

/-- A product key is neither `..` nor has a NUL. -/
private theorem proper_productKey (key : ProductKey) : key.text ≠ "..".toList ∧ '\x00' ∉ key.text := by
  constructor
  · intro h
    have hdot := char_of_productKey key (c := '.') (h ▸ by decide)
    revert hdot
    decide
  · intro h
    have hnul := char_of_productKey key h
    revert hnul
    decide

private theorem proper_productRoot : ProperPath intake.productRoot := by
  intro part hpart
  simp only [productRoot, List.mem_cons, List.not_mem_nil, or_false] at hpart
  rcases hpart with rfl | rfl
  · decide
  · exact proper_productKey intake.productKey

theorem proper_destination (role : AttachmentRole) : ProperPath (intake.destination role) := by
  intro part hpart
  rcases List.mem_append.1 hpart with h | h
  · exact proper_productRoot part h
  · exact (plain_relativeDestination role part h).2

theorem proper_folder (role : AttachmentRole) : ProperPath (intake.folder role) := by
  intro part hpart
  refine @proper_destination intake role part ?_
  rw [destination_eq]
  exact List.mem_append_left _ hpart

theorem proper_configPath : ProperPath intake.configPath := by
  intro part hpart
  rcases List.mem_append.1 hpart with h | h
  · exact proper_productRoot part h
  · rw [List.mem_singleton.1 h]
    decide

theorem proper_manifestPath : ProperPath intake.manifestPath := by
  intro part hpart
  rcases List.mem_append.1 hpart with h | h
  · exact proper_productRoot part h
  · rw [List.mem_singleton.1 h]
    decide

theorem proper_sources : ProperPath intake.sources := by
  intro part hpart
  rcases List.mem_append.1 hpart with h | h
  · exact proper_productRoot part h
  · rw [List.mem_singleton.1 h]
    decide

/-- The recorded text of a destination names it. -/
theorem ofText_relativeDestination (role : AttachmentRole) :
    FilePath.ofText (['/'].intercalate (intake.relativeDestination role)) =
      ⟨false, intake.relativeDestination role⟩ :=
  ofText_intercalate (List.cons_ne_nil _ _) fun part hpart => (plain_relativeDestination role part hpart).1

/-! ### What a preparation leaves -/

variable {env} {w v : Workspace}

/-- No link is at the paths of the intake or on the way to them, but for the destinations, which are replaced. -/
structure NoLinks (intake : IssueIntake) (w : Workspace) : Prop where
  config : w.crossesLink intake.configPath = false
  manifest : w.crossesLink intake.manifestPath = false
  folders : ∀ role, w.crossesLink (intake.folder role) = false
  sources : ∀ p, intake.sources <+: p → w.entry p = some .symlink → ∃ role, p = intake.destination role

/-- The bytes of an attachment. -/
def bytes (intake : IssueIntake) (env : IntakeEnvironment) (role : AttachmentRole) : List ℕ :=
  (env.download (intake.attachments role)).toOption.getD []

private theorem bytes_eq {role : AttachmentRole} {content : List ℕ}
    (h : env.download (intake.attachments role) = .ok content) : intake.bytes env role = content := by
  unfold bytes
  rw [h]
  rfl

/-- A download makes the folder and writes the destination. -/
theorem downloadAttachment_eq_ok {role : AttachmentRole} {record : DownloadedAttachment}
    (hfolder : w.crossesLink (intake.folder role) = false)
    (h : intake.downloadAttachment env role w = .ok (record, v)) :
    env.download (intake.attachments role) = .ok (intake.bytes env role) ∧
      record = intake.downloaded role (intake.bytes env role) ∧
      v.entry (intake.destination role) = some (.file (intake.bytes env role)) ∧
      (∀ q ∈ Workspace.prefixes (intake.folder role), v.entry q = some .directory) ∧
      Workspace.Effect w v (· = intake.destination role) (fun _ => False)
        fun q => q ∈ Workspace.prefixes (intake.folder role) := by
  unfold downloadAttachment at h
  obtain ⟨w₁, hmake, h⟩ := bind_eq_ok.1 h
  obtain ⟨content, hcontent, h⟩ := bind_eq_ok.1 h
  obtain ⟨w₂, hreplace, h⟩ := bind_eq_ok.1 h
  cases pure_eq_ok.1 h
  obtain ⟨-, hdirs, heffect⟩ := Workspace.makeDirs_eq_ok hfolder hmake
  have hparent : w₁.crossesLink (intake.destination role).dropLast = false := by
    rw [dropLast_destination]
    exact heffect.crossesLink hfolder
  obtain ⟨-, hfile, heffect'⟩ := Workspace.replaceFile_eq_ok hparent hreplace
  have hbytes := bytes_eq hcontent
  refine ⟨by rw [hbytes, hcontent], by rw [hbytes], by rw [hbytes, hfile], fun q hq => heffect'.directories q (hdirs q hq), ?_⟩
  exact (heffect.trans heffect').mono (fun q hq => hq.resolve_left id) (fun q hq => hq.elim id id)
    fun q hq => hq.resolve_right id

/-- The downloads of some roles. -/
theorem downloadAttachments_eq_ok {roles : List AttachmentRole} {records : List DownloadedAttachment}
    (hroles : roles.Nodup) (hfolders : ∀ role, w.crossesLink (intake.folder role) = false)
    (h : intake.downloadAttachments env roles w = .ok (records, v)) :
    (∀ role ∈ roles, env.download (intake.attachments role) = .ok (intake.bytes env role)) ∧
      records = roles.map (fun role => intake.downloaded role (intake.bytes env role)) ∧
      (∀ role ∈ roles, v.entry (intake.destination role) = some (.file (intake.bytes env role)) ∧
        ∀ q ∈ Workspace.prefixes (intake.folder role), v.entry q = some .directory) ∧
      Workspace.Effect w v (fun q => ∃ role ∈ roles, q = intake.destination role) (fun _ => False)
        fun q => ∃ role ∈ roles, q ∈ Workspace.prefixes (intake.folder role) := by
  induction roles generalizing w records with
  | nil =>
    cases pure_eq_ok.1 h
    refine ⟨fun _ h => absurd h List.not_mem_nil, rfl, fun _ h => absurd h List.not_mem_nil, ⟨rfl, fun _ h => h, fun _ _ h _ => h, fun _ _ h _ _ => h,
      fun _ h => h, fun _ h _ => h⟩⟩
  | cons role roles ih =>
    obtain ⟨hnot, hroles⟩ := List.nodup_cons.1 hroles
    obtain ⟨⟨record, w₁⟩, hfirst, h⟩ := bind_eq_ok.1 h
    obtain ⟨⟨records', w₂⟩, hrest, h⟩ := bind_eq_ok.1 h
    cases pure_eq_ok.1 h
    obtain ⟨hcontent, hrecord, hfile, hdirs, heffect⟩ := downloadAttachment_eq_ok (hfolders role) hfirst
    obtain ⟨hcontents, hrecords, hall, heffect'⟩ := ih hroles (fun r => heffect.crossesLink (hfolders r)) hrest
    refine ⟨fun r hr => ?_, by rw [hrecord, hrecords, List.map_cons], fun r hr => ?_, ?_⟩
    · rcases List.mem_cons.1 hr with rfl | hr
      · exact hcontent
      · exact hcontents r hr
    · rcases List.mem_cons.1 hr with rfl | hr
      · refine ⟨heffect'.kept _ _ hfile ?_ id, fun q hq => heffect'.directories q (hdirs q hq)⟩
        rintro ⟨r', hr', heq⟩
        exact hnot (destination_injective heq ▸ hr')
      · exact hall r hr
    · refine (heffect.trans heffect').mono ?_ (fun q hq => hq.elim id id) ?_
      · rintro q (rfl | ⟨r, hr, rfl⟩)
        · exact ⟨role, List.mem_cons_self, rfl⟩
        · exact ⟨r, List.mem_cons_of_mem _ hr, rfl⟩
      · rintro q (hq | ⟨r, hr, hq⟩)
        · exact ⟨role, List.mem_cons_self, hq⟩
        · exact ⟨r, List.mem_cons_of_mem _ hr, hq⟩

/-- A previous file of a role. -/
def IsPrevious (intake : IssueIntake) (role : AttachmentRole) (q : List Text) : Prop :=
  q ≠ [] ∧ q.dropLast = intake.folder role ∧ q ≠ intake.destination role

/-- The previous files of some roles are removed. -/
theorem removePrevious_eq_ok {roles : List AttachmentRole}
    (hfolders : ∀ role, w.crossesLink (intake.folder role) = false)
    (hchildren : ∀ role q, q ≠ [] → q.dropLast = intake.folder role → w.entry q ≠ some .symlink)
    (h : intake.removePrevious env roles w = .ok v) :
    Workspace.Effect w v (fun _ => False) (fun q => ∃ role ∈ roles, intake.IsPrevious role q) (fun _ => False) ∧
      ∀ role ∈ roles, ∀ q c, intake.IsPrevious role q → v.entry q ≠ some (.file c) := by
  induction roles generalizing w with
  | nil =>
    cases pure_eq_ok.1 h
    exact ⟨⟨rfl, fun _ h => h, fun _ _ h _ => h, fun _ _ h _ _ => h, fun _ h => h, fun _ h _ => h⟩,
      fun _ h => absurd h List.not_mem_nil⟩
  | cons role roles ih =>
    obtain ⟨w₁, hfirst, h⟩ := bind_eq_ok.1 h
    obtain ⟨heffect, hgone⟩ := Workspace.removeFiles_eq_ok (hfolders role) (hchildren role) hfirst
    obtain ⟨heffect', hall⟩ := ih (fun r => heffect.crossesLink (hfolders r))
      (fun r q hne hq hlink => hchildren r q hne hq (heffect.links q hlink)) h
    constructor
    · refine (heffect.trans heffect').mono (fun q hq => hq.elim id id) ?_ fun q hq => hq.elim id id
      rintro q (hq | ⟨r, hr, hq⟩)
      · exact ⟨role, List.mem_cons_self, hq⟩
      · exact ⟨r, List.mem_cons_of_mem _ hr, hq⟩
    · intro r hr q c hq hfile
      rcases List.mem_cons.1 hr with rfl | hr
      · exact hgone q c hq.1 hq.2.1 hq.2.2 (heffect'.files q c hfile id)
      · exact hall r hr q c hq hfile

private theorem length_configPath : intake.configPath.length = 3 := rfl

private theorem length_manifestPath : intake.manifestPath.length = 3 := rfl

private theorem length_destination (role : AttachmentRole) : (intake.destination role).length = 5 := rfl

private theorem IsPrevious.length {role : AttachmentRole} {q : List Text} (h : intake.IsPrevious role q) :
    q.length = 5 := by
  have hlast := congrArg List.length h.2.1
  rw [List.length_dropLast, show (intake.folder role).length = 4 from rfl] at hlast
  omega

private theorem not_isPrevious_destination (role role' : AttachmentRole) :
    ¬ intake.IsPrevious role' (intake.destination role) := by
  rintro ⟨-, hfolder, hne⟩
  rw [dropLast_destination] at hfolder
  exact hne (congrArg intake.destination (folder_injective hfolder))

private theorem configPath_ne_manifestPath : intake.configPath ≠ intake.manifestPath := by
  intro h
  have hname := List.append_cancel_left h
  revert hname
  decide

/-- The paths that a preparation writes. -/
def IsOutput (intake : IssueIntake) (q : List Text) : Prop :=
  q = intake.configPath ∨ q = intake.manifestPath ∨ ∃ role, q = intake.destination role

/-- The directories that a preparation makes. -/
def IsFolder (intake : IssueIntake) (q : List Text) : Prop :=
  q ∈ Workspace.prefixes intake.productRoot ∨ ∃ role, q ∈ Workspace.prefixes (intake.folder role)

private theorem sources_of_prefix_folder {role : AttachmentRole} {q : List Text}
    (hq : q ∈ Workspace.prefixes (intake.folder role)) (hlength : q.length = 3) : q = intake.sources := by
  have htake := List.prefix_iff_eq_take.1 (Workspace.mem_prefixes.1 hq).1
  rw [hlength] at htake
  exact htake

/-- No output is a folder. -/
private theorem not_isFolder_of_isOutput {q : List Text} (hq : intake.IsOutput q) : ¬ intake.IsFolder q := by
  rintro (hroot | ⟨role, hfolder⟩)
  · have hle := (Workspace.mem_prefixes.1 hroot).1.length_le
    rw [show intake.productRoot.length = 2 from rfl] at hle
    rcases hq with rfl | rfl | ⟨role, rfl⟩
    · rw [length_configPath] at hle
      omega
    · rw [length_manifestPath] at hle
      omega
    · rw [length_destination] at hle
      omega
  · have hle := (Workspace.mem_prefixes.1 hfolder).1.length_le
    rw [show (intake.folder role).length = 4 from rfl] at hle
    rcases hq with rfl | rfl | ⟨role, rfl⟩
    · have hname := List.append_cancel_left (sources_of_prefix_folder hfolder length_configPath)
      revert hname
      decide
    · have hname := List.append_cancel_left (sources_of_prefix_folder hfolder length_manifestPath)
      revert hname
      decide
    · rw [length_destination] at hle
      omega

/-- What a preparation leaves in its workspace. -/
structure Prepared (intake : IssueIntake) (env : IntakeEnvironment) (w v : Workspace) (config : Json)
    (manifest : IntakeManifest) : Prop where
  config : v.entry intake.configPath = some (.file (env.dumpConfig config))
  manifest : v.entry intake.manifestPath = some (.file (env.dumpManifest manifest))
  destinations : ∀ role, v.entry (intake.destination role) = some (.file (intake.bytes env role))
  folders : ∀ role, ∀ q ∈ Workspace.prefixes (intake.folder role), v.entry q = some .directory
  effect : Workspace.Effect w v intake.IsOutput (fun q => ∃ role, intake.IsPrevious role q) intake.IsFolder
  gone : ∀ role q c, intake.IsPrevious role q → v.entry q ≠ some (.file c)

/-- The config and the manifest of a successful preparation, and what it leaves. -/
theorem prepareIssueEvent_eq_ok {newId : ProductId} {issueNumber : ℕ} {manifest : IntakeManifest}
    (hlinks : intake.NoLinks w) (h : intake.prepareIssueEvent env newId issueNumber w = .ok (manifest, v)) :
    ∃ existing, intake.existingConfig env (intake.productId.getD newId) w = .ok existing ∧
      (∀ role, env.download (intake.attachments role) = .ok (intake.bytes env role)) ∧
      manifest = intake.manifest issueNumber (intake.productId.getD newId)
        (AttachmentRole.all.map fun role => intake.downloaded role (intake.bytes env role)) ∧
      intake.Prepared env w v (.obj (intake.mergedConfig (intake.productId.getD newId) existing)) manifest := by
  unfold prepareIssueEvent at h
  obtain ⟨existing, hexisting, h⟩ := bind_eq_ok.1 h
  obtain ⟨⟨files, w₁⟩, hdownload, h⟩ := bind_eq_ok.1 h
  obtain ⟨w₂, hremove, h⟩ := bind_eq_ok.1 h
  obtain ⟨w₃, hmake, h⟩ := bind_eq_ok.1 h
  obtain ⟨w₄, hconfig, h⟩ := bind_eq_ok.1 h
  obtain ⟨w₅, hmanifest, h⟩ := bind_eq_ok.1 h
  cases pure_eq_ok.1 h
  obtain ⟨hcontents, hfiles, hdestinations, heffect₁⟩ := downloadAttachments_eq_ok (by decide) hlinks.folders hdownload
  have hall : ∀ role : AttachmentRole, role ∈ AttachmentRole.all := by
    intro role
    cases role <;> decide
  -- the destinations are files now, so no link is left in the folders
  have hchildren : ∀ role q, q ≠ [] → q.dropLast = intake.folder role → w₁.entry q ≠ some .symlink := by
    intro role q hne hq hlink
    have hbelow : intake.sources <+: q := by
      rw [← List.dropLast_append_getLast hne, hq]
      exact (sources_prefix_folder role).trans (List.prefix_append ..)
    obtain ⟨role', rfl⟩ := hlinks.sources q hbelow (heffect₁.links q hlink)
    rw [(hdestinations role' (hall role')).1] at hlink
    cases hlink
  obtain ⟨heffect₂, hgone⟩ := removePrevious_eq_ok (fun role => heffect₁.crossesLink (hlinks.folders role)) hchildren
    hremove
  have heffect₁₂ := heffect₁.trans heffect₂
  have hroot : w.crossesLink intake.productRoot = false :=
    Workspace.crossesLink_of_prefix hlinks.config (List.prefix_append ..)
  obtain ⟨-, -, heffect₃⟩ := Workspace.makeDirs_eq_ok (heffect₁₂.crossesLink hroot) hmake
  have heffect₁₃ := heffect₁₂.trans heffect₃
  obtain ⟨-, hconfigFile, heffect₄⟩ := Workspace.writeBytes_eq_ok (heffect₁₃.crossesLink hlinks.config) hconfig
  have heffect₁₄ := heffect₁₃.trans heffect₄
  obtain ⟨-, hmanifestFile, heffect₅⟩ := Workspace.writeBytes_eq_ok (heffect₁₄.crossesLink hlinks.manifest) hmanifest
  have heffect₂₅ := ((heffect₂.trans heffect₃).trans heffect₄).trans heffect₅
  have heffect₃₅ := (heffect₃.trans heffect₄).trans heffect₅
  refine ⟨existing, hexisting, fun role => hcontents role (hall role), by rw [hfiles], ?_⟩
  constructor
  · exact heffect₅.kept _ _ hconfigFile configPath_ne_manifestPath id
  · exact hmanifestFile
  · intro role
    refine heffect₂₅.kept _ _ (hdestinations role (hall role)).1 ?_ ?_
    · have hlength := @length_destination intake role
      rintro (((h | h) | h) | h)
      · exact h
      · exact h
      · rw [h, length_configPath] at hlength
        omega
      · rw [h, length_manifestPath] at hlength
        omega
    · rintro (((⟨role', -, h⟩ | h) | h) | h)
      · exact not_isPrevious_destination role role' h
      · exact h
      · exact h
      · exact h
  · exact fun role q hq => heffect₂₅.directories q ((hdestinations role (hall role)).2 q hq)
  · refine (heffect₁₄.trans heffect₅).mono ?_ ?_ ?_
    · rintro q ((((⟨role, -, h⟩ | h) | h) | h) | h)
      · exact Or.inr (Or.inr ⟨role, h⟩)
      · exact h.elim
      · exact h.elim
      · exact Or.inl h
      · exact Or.inr (Or.inl h)
    · rintro q ((((h | ⟨role, -, h⟩) | h) | h) | h)
      · exact h.elim
      · exact ⟨role, h⟩
      · exact h.elim
      · exact h.elim
      · exact h.elim
    · rintro q ((((⟨role, -, h⟩ | h) | h) | h) | h)
      · exact Or.inr ⟨role, h⟩
      · exact h.elim
      · exact Or.inl h
      · exact h.elim
      · exact h.elim
  · intro role q c hq hfile
    have hlength := hq.length
    refine hgone role (hall role) q c hq (heffect₃₅.files q c hfile ?_)
    rintro ((h | h) | h)
    · exact h
    · rw [h, length_configPath] at hlength
      omega
    · rw [h, length_manifestPath] at hlength
      omega

/-! ### Preparing in a staging directory -/

/-- The workspace has only folders and outputs of the intake. -/
structure Staged (intake : IssueIntake) (w : Workspace) : Prop where
  links : ∀ q, w.entry q ≠ some .symlink
  files : ∀ q c, w.entry q = some (.file c) → intake.IsOutput q
  directories : ∀ q, w.entry q = some .directory → intake.IsFolder q

private theorem Staged.crossesLink (h : intake.Staged w) (p : List Text) : w.crossesLink p = false := by
  unfold Workspace.crossesLink
  rw [List.any_eq_false]
  exact fun q _ hlink => h.links q (of_decide_eq_true hlink)

private theorem Staged.noLinks (h : intake.Staged w) : intake.NoLinks w where
  config := h.crossesLink _
  manifest := h.crossesLink _
  folders _ := h.crossesLink _
  sources p _ hlink := absurd hlink (h.links p)

private theorem Staged.effect {written removed made : List Text → Prop} (h : intake.Staged w)
    (heffect : Workspace.Effect w v written removed made) (hwritten : ∀ q, written q → intake.IsOutput q)
    (hmade : ∀ q, made q → intake.IsFolder q) : intake.Staged v where
  links q hq := h.links q (heffect.links q hq)
  files q c hq := by
    by_cases hw : written q
    · exact hwritten q hw
    · exact h.files q c (heffect.files q c hq hw)
  directories q hq := by
    by_cases hm : made q
    · exact hmade q hm
    · exact h.directories q (heffect.made q hq hm)

/-- A folder can be made. -/
private theorem Staged.prefixes (h : intake.Staged w) {p : List Text}
    (hp : ∀ q ∈ Workspace.prefixes p, intake.IsFolder q) :
    ∀ q ∈ Workspace.prefixes p, w.entry q = none ∨ w.entry q = some .directory := by
  intro q hq
  cases hentry : w.entry q with
  | none => exact Or.inl rfl
  | some e =>
    cases e with
    | file c => exact absurd (hp q hq) (not_isFolder_of_isOutput (h.files q c hentry))
    | directory => exact Or.inr rfl
    | symlink => exact absurd hentry (h.links q)

private theorem Staged.output (h : intake.Staged w) {q : List Text} (hq : intake.IsOutput q) :
    w.entry q ≠ some .directory := fun hdirectory => not_isFolder_of_isOutput hq (h.directories q hdirectory)

private theorem mem_prefixes_self {p : List Text} (h : p ≠ []) : p ∈ Workspace.prefixes p :=
  Workspace.mem_prefixes.2 ⟨List.prefix_rfl, h⟩

private theorem downloadAttachments_total (hdownload : ∀ role,
    env.download (intake.attachments role) = .ok (intake.bytes env role)) (roles : List AttachmentRole)
    (hw : intake.Staged w) : ∃ r, intake.downloadAttachments env roles w = .ok r ∧ intake.Staged r.2 := by
  induction roles generalizing w with
  | nil => exact ⟨([], w), rfl, hw⟩
  | cons role roles ih =>
    have hfolder : ∀ q ∈ Workspace.prefixes (intake.folder role), intake.IsFolder q :=
      fun q hq => Or.inr ⟨role, hq⟩
    obtain ⟨w₁, hmake⟩ := Workspace.makeDirs_total env.links (hw.crossesLink _) (proper_folder role)
      (hw.prefixes hfolder)
    obtain ⟨-, hdirs, heffect⟩ := Workspace.makeDirs_eq_ok (hw.crossesLink _) hmake
    have hw₁ : intake.Staged w₁ := hw.effect heffect (fun _ h => h.elim) hfolder
    have hparent : w₁.entry (intake.destination role).dropLast = some .directory := by
      rw [dropLast_destination]
      exact hdirs _ (mem_prefixes_self (List.cons_ne_nil _ _))
    have hout : intake.IsOutput (intake.destination role) := Or.inr (Or.inr ⟨role, rfl⟩)
    obtain ⟨w₂, hreplace⟩ := Workspace.replaceFile_total env.links (intake.bytes env role)
      (hw₁.crossesLink _) (proper_destination role) hparent (hw₁.output hout)
    obtain ⟨-, -, heffect'⟩ := Workspace.replaceFile_eq_ok (hw₁.crossesLink _) hreplace
    have hw₂ : intake.Staged w₂ := hw₁.effect heffect' (fun q hq => hq ▸ hout) fun _ h => h.elim
    obtain ⟨⟨records, w₃⟩, hrest, hw₃⟩ := ih hw₂
    refine ⟨(intake.downloaded role (intake.bytes env role) :: records, w₃), ?_, hw₃⟩
    unfold downloadAttachments downloadAttachment
    rw [hmake, ok_bind, hdownload, ok_bind, hreplace, ok_bind]
    show (do
      let (records, w) ← intake.downloadAttachments env roles w₂
      pure (intake.downloaded role (intake.bytes env role) :: records, w) : PyResult _) = _
    rw [hrest]
    rfl

private theorem removePrevious_total (env : IntakeEnvironment) (roles : List AttachmentRole) (hw : intake.Staged w) :
    ∃ v, intake.removePrevious env roles w = .ok v ∧ intake.Staged v := by
  induction roles generalizing w with
  | nil => exact ⟨w, rfl, hw⟩
  | cons role roles ih =>
    obtain ⟨w₁, hremove⟩ := Workspace.removeFiles_total env.links (intake.destination role)
      (hw.crossesLink (intake.folder role))
    obtain ⟨heffect, -⟩ := Workspace.removeFiles_eq_ok (hw.crossesLink _) (fun q _ _ => hw.links q) hremove
    obtain ⟨v, hrest, hv⟩ := ih (hw.effect heffect (fun _ h => h.elim) fun _ h => h.elim)
    refine ⟨v, ?_, hv⟩
    unfold removePrevious
    rw [hremove, ok_bind, hrest]

/-- A preparation succeeds in a staging directory. -/
theorem prepareIssueEvent_total {newId : ProductId} (issueNumber : ℕ) {existing : List (Text × Json)}
    (hdownload : ∀ role, env.download (intake.attachments role) = .ok (intake.bytes env role))
    (hexisting : intake.existingConfig env (intake.productId.getD newId) w = .ok existing) (hw : intake.Staged w) :
    ∃ r, intake.prepareIssueEvent env newId issueNumber w = .ok r := by
  obtain ⟨⟨files, w₁⟩, hdownloads, hw₁⟩ := downloadAttachments_total hdownload AttachmentRole.all hw
  obtain ⟨w₂, hremove, hw₂⟩ := removePrevious_total env AttachmentRole.all hw₁
  have hroot : ∀ q ∈ Workspace.prefixes intake.productRoot, intake.IsFolder q := fun q hq => Or.inl hq
  obtain ⟨w₃, hmake⟩ := Workspace.makeDirs_total env.links (hw₂.crossesLink _) proper_productRoot
    (hw₂.prefixes hroot)
  obtain ⟨-, hdirs, heffect₃⟩ := Workspace.makeDirs_eq_ok (hw₂.crossesLink _) hmake
  have hw₃ : intake.Staged w₃ := hw₂.effect heffect₃ (fun _ h => h.elim) hroot
  have hparent : w₃.entry intake.productRoot = some .directory :=
    hdirs _ (mem_prefixes_self (List.cons_ne_nil _ _))
  obtain ⟨w₄, hconfig⟩ := Workspace.writeBytes_total env.links
    (env.dumpConfig (.obj (intake.mergedConfig (intake.productId.getD newId) existing)))
    (hw₃.crossesLink _) proper_configPath hparent (hw₃.output (Or.inl rfl))
  obtain ⟨-, -, heffect₄⟩ := Workspace.writeBytes_eq_ok (hw₃.crossesLink _) hconfig
  have hw₄ : intake.Staged w₄ := hw₃.effect heffect₄ (fun q hq => Or.inl hq) fun _ h => h.elim
  obtain ⟨w₅, hmanifest⟩ := Workspace.writeBytes_total env.links
    (env.dumpManifest (intake.manifest issueNumber (intake.productId.getD newId) files))
    (hw₄.crossesLink _) proper_manifestPath (heffect₄.directories _ hparent) (hw₄.output (Or.inr (Or.inl rfl)))
  refine ⟨(intake.manifest issueNumber (intake.productId.getD newId) files, w₅), ?_⟩
  unfold prepareIssueEvent
  dsimp only
  rw [hexisting, ok_bind, hdownloads, ok_bind]
  dsimp only
  rw [hremove, ok_bind, hmake, ok_bind, hconfig, ok_bind, hmanifest, ok_bind]
  rfl

/-! ### The merged config -/

private theorem lookup_cons_eq (key key' : Text) (value : Json) (fields : List (Text × Json)) :
    ((key, value) :: fields).lookup key' = if key' = key then some value else fields.lookup key' := by
  rw [List.lookup_cons]
  by_cases h : key' = key
  · rw [if_pos h, beq_iff_eq.2 h]
  · rw [if_neg h, beq_eq_false_iff_ne.2 h]

private theorem lookup_setField (key key' : Text) (value : Json) (fields : List (Text × Json)) :
    (Json.setField key value fields).lookup key' = if key' = key then some value else fields.lookup key' := by
  induction fields with
  | nil => exact lookup_cons_eq key key' value []
  | cons field fields ih =>
    obtain ⟨k, v⟩ := field
    unfold Json.setField
    by_cases hfield : k = key
    · rw [if_pos hfield, lookup_cons_eq, lookup_cons_eq, hfield]
      by_cases h : key' = key
      · rw [if_pos h, if_pos h]
      · rw [if_neg h, if_neg h, if_neg h]
    · rw [if_neg hfield, lookup_cons_eq, lookup_cons_eq, ih]
      by_cases h : key' = k
      · rw [if_pos h, if_pos h, if_neg fun hkey => hfield (h.symm.trans hkey)]
      · rw [if_neg h, if_neg h]

/-- The value of a field of the merged config. -/
private theorem field_mergedConfig (productId : ProductId) (existing : List (Text × Json)) (key : String)
    (hbase : key.toList ≠ "base_version".toList) :
    (Json.obj (intake.mergedConfig productId existing)).field key =
      if key.toList = "tables".toList then (existing.lookup "tables".toList).getD (.arr [])
      else if key.toList = "changeset_id".toList then Json.opt Json.str intake.changesetId
      else if key.toList = "description".toList then (match intake.description with
        | some description => .str description
        | none => (Json.obj existing).field "description")
      else if key.toList = "display_name".toList then .str intake.displayName
      else if key.toList = "version".toList then .nat intake.version
      else if key.toList = "product_key".toList then .str intake.productKey.text
      else if key.toList = "product_id".toList then .str productId.text
      else if key.toList = "operation".toList then .lit intake.operation.text
      else (Json.obj existing).field key := by
  have hlookup : (intake.mergedConfig productId existing).lookup key.toList = if key.toList = "tables".toList then
      some ((existing.lookup "tables".toList).getD (.arr []))
      else if key.toList = "changeset_id".toList then some (Json.opt Json.str intake.changesetId)
      else if key.toList = "description".toList then some (match intake.description with
        | some description => .str description
        | none => (Json.obj existing).field "description")
      else if key.toList = "display_name".toList then some (.str intake.displayName)
      else if key.toList = "version".toList then some (.nat intake.version)
      else if key.toList = "product_key".toList then some (.str intake.productKey.text)
      else if key.toList = "product_id".toList then some (.str productId.text)
      else if key.toList = "operation".toList then some (.lit intake.operation.text)
      else existing.lookup key.toList := by
    unfold mergedConfig
    dsimp only
    split
    · simp only [lookup_setField]
    · rw [lookup_setField, if_neg hbase]
      simp only [lookup_setField]
  show ((intake.mergedConfig productId existing).lookup key.toList).getD .null = _
  rw [hlookup]
  split_ifs <;> rfl

/-- The description of the issue is the one of the merged config, also where the issue has none. -/
def DescriptionKept (intake : IssueIntake) (existing : List (Text × Json)) : Prop :=
  intake.description = none → (Json.obj existing).field "description" = .null

theorem configMatches_mergedConfig {productId : ProductId} {existing : List (Text × Json)} :
    intake.configMatches productId (.obj (intake.mergedConfig productId existing)) = true ↔
      intake.DescriptionKept existing := by
  have hoperation : (Json.obj (intake.mergedConfig productId existing)).field "operation" =
      .lit intake.operation.text := (field_mergedConfig productId existing "operation" (by decide)).trans rfl
  have hid : (Json.obj (intake.mergedConfig productId existing)).field "product_id" = .str productId.text :=
    (field_mergedConfig productId existing "product_id" (by decide)).trans rfl
  have hkey : (Json.obj (intake.mergedConfig productId existing)).field "product_key" =
      .str intake.productKey.text := (field_mergedConfig productId existing "product_key" (by decide)).trans rfl
  have hversion : (Json.obj (intake.mergedConfig productId existing)).field "version" = .nat intake.version :=
    (field_mergedConfig productId existing "version" (by decide)).trans rfl
  have hname : (Json.obj (intake.mergedConfig productId existing)).field "display_name" = .str intake.displayName :=
    (field_mergedConfig productId existing "display_name" (by decide)).trans rfl
  have hdescription : (Json.obj (intake.mergedConfig productId existing)).field "description" =
      (match intake.description with
        | some description => .str description
        | none => (Json.obj existing).field "description") :=
    (field_mergedConfig productId existing "description" (by decide)).trans rfl
  have hchangeset : (Json.obj (intake.mergedConfig productId existing)).field "changeset_id" =
      Json.opt Json.str intake.changesetId :=
    (field_mergedConfig productId existing "changeset_id" (by decide)).trans rfl
  have hchangesetMatches : isOptText intake.changesetId (Json.opt Json.str intake.changesetId) = true := by
    cases intake.changesetId <;> simp [isOptText, Json.opt, Json.isText]
  unfold configMatches DescriptionKept
  rw [hoperation, hid, hkey, hversion, hname, hdescription, hchangeset, hchangesetMatches]
  have hcases : isOptText intake.description (match intake.description with
      | some description => .str description
      | none => (Json.obj existing).field "description") = true ↔
        (intake.description = none → (Json.obj existing).field "description" = .null) := by
    cases intake.description with
    | none =>
      cases (Json.obj existing).field "description" <;> simp [isOptText]
    | some description => simp [isOptText, Json.isText]
  rw [← hcases]
  simp [Json.isText, Json.isNat, Json.lit, Json.nat]

/-! ### Recognising what was prepared -/

private theorem nul_notMem_of_proper {p : List Text} (h : ProperPath p) : ∀ part ∈ p, '\x00' ∉ part :=
  fun part hpart => (h part hpart).2

private theorem resolveRead_relative {p : List Text} (hproper : ProperPath p) (hcross : v.crossesLink p = false)
    (hentry : v.entry p ≠ none) : v.checkout.resolveRead ⟨false, p⟩ = .ok p :=
  Workspace.resolveRead_of_entry hproper (nul_notMem_of_proper hproper) rfl hcross hentry

private theorem staged_emptyStaging {root : List Text} (hroot : ProperPath root) :
    intake.Staged (emptyStaging root hroot) := by
  constructor
  · intro q hq
    cases hq
  · intro q c hq
    cases hq
  · intro q hq
    cases hq

/-- The staging directory gets the config of the workspace for an update. -/
private theorem stageConfig_total {content : List ℕ} {root : List Text} (hroot : ProperPath root)
    (hconfig : v.entry intake.configPath = some (.file content)) (hcross : v.crossesLink intake.configPath = false) :
    ∃ u, intake.stageConfig env v (emptyStaging root hroot) = .ok u ∧ intake.Staged u ∧
      (intake.operation = .update → u.entry intake.configPath = some (.file content)) := by
  unfold stageConfig
  by_cases hupdate : intake.operation = .update
  · rw [if_pos hupdate]
    have hstaged := @staged_emptyStaging intake root hroot
    have hfolders : ∀ q ∈ Workspace.prefixes intake.productRoot, intake.IsFolder q := fun q hq => Or.inl hq
    obtain ⟨u₁, hmake⟩ := Workspace.makeDirs_total env.links (hstaged.crossesLink _) proper_productRoot
      (hstaged.prefixes hfolders)
    obtain ⟨-, hdirs, heffect⟩ := Workspace.makeDirs_eq_ok (hstaged.crossesLink _) hmake
    have hstaged₁ : intake.Staged u₁ := hstaged.effect heffect (fun _ h => h.elim) hfolders
    have hparent : u₁.entry intake.productRoot = some .directory :=
      hdirs _ (mem_prefixes_self (List.cons_ne_nil _ _))
    obtain ⟨u₂, hwrite⟩ := Workspace.writeBytes_total env.links content (hstaged₁.crossesLink _) proper_configPath
      hparent (hstaged₁.output (Or.inl rfl))
    obtain ⟨-, hfile, heffect'⟩ := Workspace.writeBytes_eq_ok (hstaged₁.crossesLink _) hwrite
    refine ⟨u₂, ?_, hstaged₁.effect heffect' (fun q hq => Or.inl hq) fun _ h => h.elim, fun _ => hfile⟩
    have hresolve : v.checkout.resolveRead ⟨false, intake.configPath⟩ = .ok intake.configPath :=
      resolveRead_relative proper_configPath hcross (by rw [hconfig]; exact Option.some_ne_none _)
    have hcontent : contentAt v intake.configPath = .ok content := by
      unfold contentAt
      rw [hconfig]
    rw [mapError_eq_ok.2 hmake, ok_bind, mapError_eq_ok.2 hresolve, ok_bind, hcontent, ok_bind,
      mapError_eq_ok.2 hwrite]
  · rw [if_neg hupdate]
    exact ⟨_, rfl, staged_emptyStaging hroot, fun h => absurd h hupdate⟩

private theorem productId_getD (hupdate : intake.operation = .update) (newId newId' : ProductId) :
    intake.productId.getD newId' = intake.productId.getD newId := by
  cases hid : intake.productId with
  | none => exact absurd hid (intake.update_existing hupdate)
  | some productId => rfl

/-- The config of a product is accepted as the existing one. -/
private theorem existingConfig_of_file {productId : ProductId} {content : List ℕ} {fields : List (Text × Json)}
    (hupdate : intake.operation = .update) (hcross : w.crossesLink intake.configPath = false)
    (hfile : w.entry intake.configPath = some (.file content)) (hload : env.loadConfig content = some (.obj fields))
    (hid : ((Json.obj fields).field "product_id").isText productId.text = true)
    (hkey : ((Json.obj fields).field "product_key").isText intake.productKey.text = true) :
    intake.existingConfig env productId w = .ok fields := by
  have hisFile : w.isFile env.links intake.configPath = true := by
    unfold Workspace.isFile
    rw [hcross, if_neg (by decide)]
    exact Workspace.isFile_iff.2 ⟨_, hfile⟩
  have hread : w.readBytes env.links intake.configPath = .ok content := by
    unfold Workspace.readBytes
    rw [hcross, if_neg (by decide), hfile]
  unfold existingConfig
  rw [if_pos hupdate]
  refine raiseIf_bind_eq_ok.2 ⟨by rw [hisFile]; decide, ?_⟩
  rw [hread, ok_bind, hload]
  exact raiseIf_bind_eq_ok.2 ⟨by rw [hid]; decide, raiseIf_bind_eq_ok.2 ⟨by rw [hkey]; decide, rfl⟩⟩

/-- The prepared config is accepted as the existing one. -/
private theorem existingConfig_staged {newId : ProductId} (newId' : ProductId) {existing : List (Text × Json)}
    {u : Workspace} (hu : intake.Staged u) (hyaml : env.loadConfig (env.dumpConfig
      (.obj (intake.mergedConfig (intake.productId.getD newId) existing))) =
        some (.obj (intake.mergedConfig (intake.productId.getD newId) existing)))
    (hconfig : intake.operation = .update → u.entry intake.configPath = some (.file (env.dumpConfig
      (.obj (intake.mergedConfig (intake.productId.getD newId) existing))))) :
    ∃ existing', intake.existingConfig env (intake.productId.getD newId') u = .ok existing' := by
  by_cases hupdate : intake.operation = .update
  · rw [productId_getD hupdate newId newId']
    have hid := @field_mergedConfig intake (intake.productId.getD newId) existing "product_id" (by decide)
    have hkey := @field_mergedConfig intake (intake.productId.getD newId) existing "product_key" (by decide)
    refine ⟨_, existingConfig_of_file hupdate (hu.crossesLink _) (hconfig hupdate) hyaml ?_ ?_⟩
    · rw [hid.trans rfl]
      simp [Json.isText]
    · rw [hkey.trans rfl]
      simp [Json.isText]
  · unfold existingConfig
    rw [if_neg hupdate]
    exact ⟨[], rfl⟩

/-- A prepared source is recognised. -/
private theorem checkSource_prepared {config config' : Json} {manifest manifest' : IntakeManifest}
    {w' u : Workspace} (hv : intake.Prepared env w v config manifest)
    (hlinks : intake.NoLinks w) (hu : intake.Prepared env w' u config' manifest') (hstaged : intake.Staged w')
    {files : Dict AttachmentRole DownloadedAttachment} {role : AttachmentRole}
    (hfiles : files.lookup role = some (intake.downloaded role (intake.bytes env role))) :
    intake.checkSource env v files u (intake.downloaded role (intake.bytes env role)) =
      .ok (intake.destination role) := by
  have hrelative : FilePath.ofText (intake.downloaded role (intake.bytes env role)).relativePath =
      ⟨false, intake.relativeDestination role⟩ := ofText_relativeDestination role
  have hdotdot : "..".toList ∉ intake.relativeDestination role := fun h => (plain_relativeDestination role _ h).2.1 rfl
  have hcross : v.crossesLink (intake.destination role) = false := by
    refine Workspace.crossesLink_child ?_ ?_
    · rw [dropLast_destination]
      exact hv.effect.crossesLink (hlinks.folders role)
    · rw [hv.destinations role]
      simp
  have hentry : v.entry (intake.destination role) ≠ none := by
    rw [hv.destinations role]
    exact Option.some_ne_none _
  have hresolve : v.checkout.resolveRead ⟨false, intake.productRoot ++ intake.relativeDestination role⟩ =
      .ok (intake.destination role) := resolveRead_relative (proper_destination role) hcross hentry
  have hcontent : contentAt v (intake.destination role) = .ok (intake.bytes env role) := by
    unfold contentAt
    rw [hv.destinations role]
  have hcanonical : u.readBytes env.links (intake.productRoot ++ intake.relativeDestination role) =
      .ok (intake.bytes env role) := by
    have hucross : u.crossesLink (intake.destination role) = false := hu.effect.crossesLink (hstaged.crossesLink _)
    unfold Workspace.readBytes
    show (if u.crossesLink (intake.destination role) then env.links.read u (intake.destination role)
      else match u.entry (intake.destination role) with
        | some (.file content) => .ok content
        | _ => .error Workspace.osError) = _
    rw [hucross, if_neg (by decide), hu.destinations role]
  unfold checkSource
  dsimp only
  rw [hrelative]
  refine bind_eq_ok.2 ⟨(), mapError_eq_ok.2 (failIf_eq_ok.2 ?_), ?_⟩
  · rintro (h | h | h)
    · cases h
    · exact hdotdot h
    · cases h
  rw [mapError_eq_ok.2 hresolve, ok_bind, hcontent, ok_bind]
  refine bind_eq_ok.2 ⟨_, mapError_eq_ok.2 (Dict.getItem_eq_ok.2 hfiles), ?_⟩
  rw [hrelative, mapError_eq_ok.2 hcanonical, ok_bind]
  refine bind_eq_ok.2 ⟨(), mapError_eq_ok.2 (failIf_eq_ok.2 ?_), rfl⟩
  simp [downloaded, relativeDestination]

/-- Every file below `sources` is a destination, or lies directly in one of the three folders. -/
def SourcesOwned (intake : IssueIntake) (w : Workspace) : Prop :=
  ∀ p c, intake.sources <+: p → w.entry p = some (.file c) →
    ∃ role, p = intake.destination role ∨ p.dropLast = intake.folder role

section Recognised

variable {config : Json} {manifest : IntakeManifest}

private theorem not_sources_prefix_configPath : ¬ intake.sources <+: intake.configPath := by
  intro h
  have hname := List.append_cancel_left (h.eq_of_length rfl)
  revert hname
  decide

private theorem not_sources_prefix_manifestPath : ¬ intake.sources <+: intake.manifestPath := by
  intro h
  have hname := List.append_cancel_left (h.eq_of_length rfl)
  revert hname
  decide

private theorem ne_nil_of_below_sources {p : List Text} (h : intake.sources <+: p) : p ≠ [] := by
  rintro rfl
  have hle := h.length_le
  rw [show intake.sources.length = 3 from rfl] at hle
  exact absurd hle (by decide)

/-- The files and links that are left below `sources`. -/
private theorem mem_sourceTree (hv : intake.Prepared env w v config manifest) (hlinks : intake.NoLinks w)
    {p : List Text} : p ∈ sourceTree v intake.sources ↔
      intake.sources <+: p ∧ ∃ c, v.entry p = some (.file c) := by
  have hsources : v.entry intake.sources = some .directory :=
    hv.folders .productHtml _ (Workspace.mem_prefixes.2 ⟨sources_prefix_folder _, List.cons_ne_nil _ _⟩)
  unfold sourceTree
  rw [List.mem_filter, decide_eq_true_eq]
  constructor
  · rintro ⟨-, hbelow, -, hfile | hlink⟩
    · exact ⟨hbelow, Workspace.isFile_iff.1 hfile⟩
    · obtain ⟨role, rfl⟩ := hlinks.sources p hbelow (hv.effect.links p hlink)
      rw [hv.destinations role] at hlink
      cases hlink
  · rintro ⟨hbelow, c, hfile⟩
    refine ⟨v.complete p (by rw [hfile]; exact Option.some_ne_none _), hbelow, ?_, Or.inl ?_⟩
    · rintro rfl
      rw [hsources] at hfile
      cases hfile
    · exact Workspace.isFile_iff.2 ⟨c, hfile⟩

private theorem destination_mem_sourceTree (hv : intake.Prepared env w v config manifest) (hlinks : intake.NoLinks w)
    (role : AttachmentRole) : intake.destination role ∈ sourceTree v intake.sources :=
  (mem_sourceTree hv hlinks).2 ⟨sources_prefix_destination role, _, hv.destinations role⟩

/-- Only the destinations are left exactly if all files were owned. -/
private theorem sourceTree_iff (hv : intake.Prepared env w v config manifest) (hlinks : intake.NoLinks w) :
    (∀ p ∈ sourceTree v intake.sources, ∃ role, p = intake.destination role) ↔ intake.SourcesOwned w := by
  have houtput : ∀ p, intake.sources <+: p → intake.IsOutput p → ∃ role, p = intake.destination role := by
    rintro p hbelow (rfl | rfl | hrole)
    · exact absurd hbelow not_sources_prefix_configPath
    · exact absurd hbelow not_sources_prefix_manifestPath
    · exact hrole
  constructor
  · intro hall p c hbelow hfile
    by_cases hout : intake.IsOutput p
    · obtain ⟨role, hrole⟩ := houtput p hbelow hout
      exact ⟨role, Or.inl hrole⟩
    · by_cases hprevious : ∃ role, intake.IsPrevious role p
      · obtain ⟨role, -, hfolder, -⟩ := hprevious
        exact ⟨role, Or.inr hfolder⟩
      · obtain ⟨role, hrole⟩ := hall p
          ((mem_sourceTree hv hlinks).2 ⟨hbelow, c, hv.effect.kept p c hfile hout hprevious⟩)
        exact ⟨role, Or.inl hrole⟩
  · intro howned p hp
    obtain ⟨hbelow, c, hfile⟩ := (mem_sourceTree hv hlinks).1 hp
    by_cases hout : intake.IsOutput p
    · exact houtput p hbelow hout
    · obtain ⟨role, hrole | hfolder⟩ := howned p c hbelow (hv.effect.files p c hfile hout)
      · exact ⟨role, hrole⟩
      · refine absurd hfile (hv.gone role p c ⟨ne_nil_of_below_sources hbelow, hfolder, ?_⟩)
        exact fun hdestination => hout (Or.inr (Or.inr ⟨role, hdestination⟩))

/-- The destinations pass the policy as paths below the root. -/
private theorem resolveRead_destination (hv : intake.Prepared env w v config manifest) (hlinks : intake.NoLinks w)
    (role : AttachmentRole) : v.checkout.resolveRead ⟨true, v.root ++ intake.destination role⟩ =
      .ok (intake.destination role) := by
  refine Workspace.resolveRead_of_entry (proper_destination role) ?_ rfl ?_ ?_
  · intro part hpart
    rcases List.mem_append.1 hpart with hroot | hpath
    · exact (v.root_proper part hroot).2
    · exact (proper_destination role part hpath).2
  · refine Workspace.crossesLink_child ?_ ?_
    · rw [dropLast_destination]
      exact hv.effect.crossesLink (hlinks.folders role)
    · rw [hv.destinations role]
      simp
  · rw [hv.destinations role]
    exact Option.some_ne_none _

private theorem mapM_ok_self {α ε : Type} {f : α → Except ε α} {l : List α} (h : ∀ a ∈ l, f a = .ok a) :
    l.mapM f = .ok l := by
  rw [mapM_eq_ok, List.forall₂_same]
  exact h

/-- The comparison of the source sets succeeds exactly if only the destinations are left. -/
private theorem sourceSet_iff (hv : intake.Prepared env w v config manifest) (hlinks : intake.NoLinks w) :
    (∃ actual, ((sourceTree v intake.sources).mapM fun p =>
        (v.checkout.resolveRead ⟨true, v.root ++ p⟩).mapError ServiceError.workflow) = .ok actual ∧
      (∀ p ∈ actual, p ∈ AttachmentRole.all.map intake.destination) ∧
        ∀ p ∈ AttachmentRole.all.map intake.destination, p ∈ actual) ↔
      ∀ p ∈ sourceTree v intake.sources, ∃ role, p = intake.destination role := by
  constructor
  · rintro ⟨actual, hactual, hsubset, -⟩ p hp
    obtain ⟨q, hq, hresolve⟩ := exists_of_mapM_eq_ok hactual hp
    have hproper : ProperPath p := by
      obtain ⟨-, c, hfile⟩ := (mem_sourceTree hv hlinks).1 hp
      exact v.names_proper p (by rw [hfile]; exact Option.some_ne_none _)
    have hsame : q = p := Checkout.resolveRead_eq_ok (fun h => (v.root_proper _ h).1 rfl)
      (fun h => (hproper _ h).1 rfl) rfl (mapError_eq_ok.1 hresolve)
    obtain ⟨role, -, hrole⟩ := List.mem_map.1 (hsubset q hq)
    exact ⟨role, by rw [← hsame, hrole]⟩
  · intro hall
    refine ⟨sourceTree v intake.sources, mapM_ok_self fun p hp => ?_, fun p hp => ?_, fun p hp => ?_⟩
    · obtain ⟨role, rfl⟩ := hall p hp
      exact mapError_eq_ok.2 (resolveRead_destination hv hlinks role)
    · obtain ⟨role, rfl⟩ := hall p hp
      refine List.mem_map_of_mem ?_
      cases role <;> decide
    · obtain ⟨role, -, rfl⟩ := List.mem_map.1 hp
      exact destination_mem_sourceTree hv hlinks role

/-- The source of a manifest is looked up under its role. -/
private theorem lookup_canonicalFiles (role : AttachmentRole) :
    (Dict.ofList ((AttachmentRole.all.map fun r => intake.downloaded r (intake.bytes env r)).map
      fun item => (item.role, item))).lookup role = some (intake.downloaded role (intake.bytes env role)) := by
  refine Dict.lookup_ofList ?_ ?_
  · show AttachmentRole.all.Nodup
    decide
  · rw [List.map_map]
    refine List.mem_map.2 ⟨role, ?_, rfl⟩
    cases role <;> decide

/-- What a preparation left is recognised by the one that is prepared in a staging directory. -/
private theorem validateExistingIntake_iff {existing : List (Text × Json)} {productId : ProductId} {issueNumber : ℕ}
    {config' : Json} {canonical : IntakeManifest} {w' u : Workspace}
    (hv : intake.Prepared env w v (.obj (intake.mergedConfig productId existing)) manifest)
    (hlinks : intake.NoLinks w) (hu : intake.Prepared env w' u config' canonical) (hstaged : intake.Staged w')
    (hrecord : manifest = intake.manifest issueNumber productId
      (AttachmentRole.all.map fun role => intake.downloaded role (intake.bytes env role)))
    (hcanonical : canonical.files = AttachmentRole.all.map fun role => intake.downloaded role (intake.bytes env role))
    (hid : intake.productId.getD productId = productId)
    (hyaml : env.loadConfig (env.dumpConfig (.obj (intake.mergedConfig productId existing))) =
      some (.obj (intake.mergedConfig productId existing)))
    (hmanifest : env.loadManifest (env.dumpManifest manifest) = some manifest) :
    intake.validateExistingIntake env issueNumber v canonical u = .ok manifest ↔
      intake.DescriptionKept existing ∧ intake.SourcesOwned w := by
  -- the reads of the validation find what the intake prepared
  have hmanifestRead : v.checkout.resolveRead ⟨false, intake.manifestPath⟩ = .ok intake.manifestPath :=
    resolveRead_relative proper_manifestPath (hv.effect.crossesLink hlinks.manifest)
      (by rw [hv.manifest]; exact Option.some_ne_none _)
  have hconfigRead : v.checkout.resolveRead ⟨false, intake.configPath⟩ = .ok intake.configPath :=
    resolveRead_relative proper_configPath (hv.effect.crossesLink hlinks.config)
      (by rw [hv.config]; exact Option.some_ne_none _)
  have hsourcesRead : v.checkout.resolveRead ⟨false, intake.sources⟩ = .ok intake.sources := by
    refine resolveRead_relative proper_sources ?_ ?_
    · exact Workspace.crossesLink_of_prefix (hv.effect.crossesLink (hlinks.folders .productHtml))
        (sources_prefix_folder _)
    · rw [hv.folders .productHtml _ (Workspace.mem_prefixes.2 ⟨sources_prefix_folder _, List.cons_ne_nil _ _⟩)]
      exact Option.some_ne_none _
  have hmanifestAt : metadataAt env.loadManifest v intake.manifestPath = .ok manifest := by
    unfold metadataAt
    rw [hv.manifest]
    dsimp only
    rw [hmanifest, Option.elim_some]
  have hconfigAt : metadataAt env.loadConfig v intake.configPath =
      .ok (.obj (intake.mergedConfig productId existing)) := by
    unfold metadataAt
    rw [hv.config]
    dsimp only
    rw [hyaml, Option.elim_some]
  have hfiles : manifest.files = AttachmentRole.all.map fun role => intake.downloaded role (intake.bytes env role) := by
    rw [hrecord]
    rfl
  have hrecorded : manifest.files.mapM (intake.checkSource env v
      (Dict.ofList (canonical.files.map fun item => (item.role, item))) u) =
        .ok (AttachmentRole.all.map intake.destination) := by
    rw [hfiles, hcanonical, mapM_eq_ok, List.forall₂_map_left_iff, List.forall₂_map_right_iff, List.forall₂_same]
    exact fun role _ => checkSource_prepared hv hlinks hu hstaged (lookup_canonicalFiles role)
  have hproduct : intake.productId.getD manifest.productId = productId := by
    rw [hrecord]
    exact hid
  unfold validateExistingIntake
  rw [mapError_eq_ok.2 hmanifestRead, ok_bind, hmanifestAt, ok_bind, mapError_eq_ok.2 hconfigRead, ok_bind, hconfigAt,
    ok_bind, hproduct, ← sourceTree_iff hv hlinks, ← sourceSet_iff hv hlinks,
    ← @configMatches_mergedConfig intake productId existing]
  constructor
  · -- only the check of the configuration and that of the sources can fail
    intro h
    obtain ⟨_, -, h⟩ := bind_eq_ok.1 h
    obtain ⟨_, hconfig, h⟩ := bind_eq_ok.1 h
    obtain ⟨_, -, h⟩ := bind_eq_ok.1 h
    obtain ⟨_, -, h⟩ := bind_eq_ok.1 h
    dsimp only at h
    rw [hrecorded, ok_bind, mapError_eq_ok.2 hsourcesRead, ok_bind] at h
    obtain ⟨actual, hactual, h⟩ := bind_eq_ok.1 h
    obtain ⟨_, hset, -⟩ := bind_eq_ok.1 h
    have hmatches := failIf_eq_ok.1 (mapError_eq_ok.1 hconfig)
    exact ⟨Bool.not_eq_false _ ▸ hmatches, actual, hactual, not_not.1 (failIf_eq_ok.1 (mapError_eq_ok.1 hset))⟩
  · rintro ⟨hmatches, actual, hactual, hset⟩
    refine bind_eq_ok.2 ⟨(), mapError_eq_ok.2 (failIf_eq_ok.2 (by simp [Json.isObject])), ?_⟩
    refine bind_eq_ok.2 ⟨(), mapError_eq_ok.2 (failIf_eq_ok.2 (by rw [hmatches]; decide)), ?_⟩
    refine bind_eq_ok.2 ⟨(), mapError_eq_ok.2 (failIf_eq_ok.2 ?_), ?_⟩
    · rw [hrecord]
      rintro (h | h | h | ⟨p, hp, h⟩)
      · exact h rfl
      · exact h rfl
      · exact h rfl
      · refine h ?_
        show productId = p
        rw [← hid, hp, Option.getD_some]
    refine bind_eq_ok.2 ⟨(), mapError_eq_ok.2 (failIf_eq_ok.2 ?_), ?_⟩
    · rw [hfiles, hcanonical, List.map_map]
      rintro (⟨role, hrole, h⟩ | ⟨role, hrole, h⟩)
      · exact h (List.mem_map.2 ⟨role, hrole, rfl⟩)
      · exact h (List.mem_map.2 ⟨role, hrole, rfl⟩)
    dsimp only
    rw [hrecorded, ok_bind, mapError_eq_ok.2 hsourcesRead, ok_bind, hactual, ok_bind]
    exact bind_eq_ok.2 ⟨(), mapError_eq_ok.2 (failIf_eq_ok.2 (not_not.2 hset)), rfl⟩

end Recognised

/-- No link is left where the intake is read, nor anywhere below `sources`. -/
def NoLinksLeft (intake : IssueIntake) (v : Workspace) : Prop :=
  (∀ p ∈ [intake.manifestPath, intake.configPath, intake.sources], v.checkout.crossesSymlink [] p = false) ∧
    ∀ p, intake.sources <+: p → p ≠ intake.sources → v.entry p ≠ some .symlink

private theorem crossesSymlink_relative {p relative : List Text} (hproper : ProperPath p)
    (h : (v.checkout.resolveRead ⟨false, p⟩).mapError ServiceError.workflow = .ok relative) :
    relative = p ∧ v.checkout.crossesSymlink [] p = false := by
  have hresolve := mapError_eq_ok.1 h
  have hsame : relative = p := Checkout.resolveRead_eq_ok (fun h => (v.root_proper _ h).1 rfl)
    (fun h => (hproper _ h).1 rfl) rfl hresolve
  exact ⟨hsame, hsame ▸ Checkout.crossesSymlink_of_resolveRead hresolve⟩

private theorem isFile_of_checkSource {files : Dict AttachmentRole DownloadedAttachment} {u : Workspace}
    {item : DownloadedAttachment} {p : List Text} (h : intake.checkSource env v files u item = .ok p) :
    ∃ c, v.entry p = some (.file c) := by
  unfold checkSource at h
  obtain ⟨_, -, h⟩ := bind_eq_ok.1 h
  obtain ⟨source, -, h⟩ := bind_eq_ok.1 h
  obtain ⟨content, hcontent, h⟩ := bind_eq_ok.1 h
  obtain ⟨_, -, h⟩ := bind_eq_ok.1 h
  obtain ⟨_, -, h⟩ := bind_eq_ok.1 h
  obtain ⟨_, -, h⟩ := bind_eq_ok.1 h
  cases pure_eq_ok.1 h
  unfold contentAt at hcontent
  split at hcontent
  · rename_i c hfile
    exact ⟨c, hfile⟩
  · cases hcontent

/-- The recorded path of a source that is checked. -/
private theorem path_of_checkSource {files : Dict AttachmentRole DownloadedAttachment} {u : Workspace}
    {item : DownloadedAttachment} {p : List Text} (h : intake.checkSource env v files u item = .ok p) :
    (FilePath.ofText item.relativePath).absolute = false ∧ "..".toList ∉ (FilePath.ofText item.relativePath).parts ∧
      (FilePath.ofText item.relativePath).parts.head? = some "sources".toList ∧
        p = intake.productRoot ++ (FilePath.ofText item.relativePath).parts := by
  unfold checkSource at h
  obtain ⟨_, hsafe, h⟩ := bind_eq_ok.1 h
  obtain ⟨source, hsource, h⟩ := bind_eq_ok.1 h
  obtain ⟨_, -, h⟩ := bind_eq_ok.1 h
  obtain ⟨_, -, h⟩ := bind_eq_ok.1 h
  obtain ⟨_, -, h⟩ := bind_eq_ok.1 h
  obtain ⟨_, hmatch, h⟩ := bind_eq_ok.1 h
  cases pure_eq_ok.1 h
  have hsafe := failIf_eq_ok.1 (mapError_eq_ok.1 hsafe)
  rw [not_or, not_or] at hsafe
  have hhead := failIf_eq_ok.1 (mapError_eq_ok.1 hmatch)
  rw [not_or, not_not] at hhead
  refine ⟨Bool.not_eq_true _ ▸ hsafe.1, hsafe.2.1, hhead.1, ?_⟩
  refine Checkout.resolveRead_eq_ok (fun h => (v.root_proper _ h).1 rfl) ?_ rfl (mapError_eq_ok.1 hsource)
  rw [List.mem_append, not_or]
  exact ⟨fun h => (proper_productRoot _ h).1 rfl, hsafe.2.1⟩

/-- What a recognised intake has been compared with. -/
private theorem compared_of_prepareExistingIntake {newId : ProductId} {issueNumber : ℕ} {manifest : IntakeManifest}
    {stagingRoot : List Text} {hroot : ProperPath stagingRoot}
    (h : intake.prepareExistingIntake env newId issueNumber v stagingRoot hroot = .ok manifest) :
    v.checkout.crossesSymlink [] intake.manifestPath = false ∧
      metadataAt env.loadManifest v intake.manifestPath = .ok manifest ∧
      v.checkout.crossesSymlink [] intake.configPath = false ∧ v.checkout.crossesSymlink [] intake.sources = false ∧
      ∃ files u recorded, manifest.files.mapM (intake.checkSource env v files u) = .ok recorded ∧
        ∀ p ∈ sourceTree v intake.sources, p ∈ recorded := by
  unfold prepareExistingIntake at h
  obtain ⟨_, -, h⟩ := bind_eq_ok.1 h
  obtain ⟨⟨canonical, u⟩, -, h⟩ := bind_eq_ok.1 h
  dsimp only at h
  unfold validateExistingIntake at h
  obtain ⟨_, hmanifest, h⟩ := bind_eq_ok.1 h
  obtain ⟨_, hmetadata, h⟩ := bind_eq_ok.1 h
  obtain ⟨_, hconfig, h⟩ := bind_eq_ok.1 h
  obtain ⟨_, -, h⟩ := bind_eq_ok.1 h
  obtain ⟨_, -, h⟩ := bind_eq_ok.1 h
  obtain ⟨_, -, h⟩ := bind_eq_ok.1 h
  obtain ⟨_, -, h⟩ := bind_eq_ok.1 h
  obtain ⟨_, -, h⟩ := bind_eq_ok.1 h
  dsimp only at h
  obtain ⟨recorded, hrecorded, h⟩ := bind_eq_ok.1 h
  obtain ⟨_, hsources, h⟩ := bind_eq_ok.1 h
  obtain ⟨actual, hactual, h⟩ := bind_eq_ok.1 h
  obtain ⟨_, hset, h⟩ := bind_eq_ok.1 h
  cases pure_eq_ok.1 h
  obtain ⟨hpath, hlinks⟩ := crossesSymlink_relative proper_manifestPath hmanifest
  rw [hpath] at hmetadata
  obtain ⟨hsame, hcross⟩ := crossesSymlink_relative proper_sources hsources
  refine ⟨hlinks, hmetadata, (crossesSymlink_relative proper_configPath hconfig).2, hcross, _, u, recorded, hrecorded,
    fun p hp => ?_⟩
  have hexists : v.entry p ≠ none := by
    unfold sourceTree at hp
    rw [List.mem_filter, decide_eq_true_eq] at hp
    rcases hp.2.2.2 with hfile | hlink
    · obtain ⟨c, hc⟩ := Workspace.isFile_iff.1 hfile
      rw [hc]
      exact Option.some_ne_none _
    · rw [hlink]
      exact Option.some_ne_none _
  rw [hsame] at hactual
  obtain ⟨q, hq, hresolve⟩ := exists_of_mapM_eq_ok hactual hp
  have hqp : q = p := Checkout.resolveRead_eq_ok (fun h => (v.root_proper _ h).1 rfl)
    (fun h => (v.names_proper p hexists _ h).1 rfl) rfl (mapError_eq_ok.1 hresolve)
  exact hqp ▸ (not_not.1 (failIf_eq_ok.1 (mapError_eq_ok.1 hset))).1 q hq

/-- Where an intake is recognised, no link is left: the policy refuses the links that the preparation follows. -/
theorem noLinksLeft_of_prepareExistingIntake {newId : ProductId} {issueNumber : ℕ} {manifest : IntakeManifest}
    {stagingRoot : List Text} {hroot : ProperPath stagingRoot}
    (h : intake.prepareExistingIntake env newId issueNumber v stagingRoot hroot = .ok manifest) :
    intake.NoLinksLeft v := by
  obtain ⟨hmanifest, -, hconfig, hsources, files, u, recorded, hrecorded, hset⟩ := compared_of_prepareExistingIntake h
  refine ⟨?_, fun p hbelow hne hlink => ?_⟩
  · intro p hp
    rcases List.mem_cons.1 hp with rfl | hp
    · exact hmanifest
    rcases List.mem_cons.1 hp with rfl | hp
    · exact hconfig
    · rw [List.mem_singleton.1 hp]
      exact hsources
  · -- a link in the tree would have to be a recorded source, which is a file
    have htree : p ∈ sourceTree v intake.sources := by
      unfold sourceTree
      rw [List.mem_filter, decide_eq_true_eq]
      refine ⟨v.complete p ?_, hbelow, hne, Or.inr hlink⟩
      rw [hlink]
      exact Option.some_ne_none _
    obtain ⟨item, -, hitem⟩ := mem_of_mapM_eq_ok hrecorded (hset p htree)
    obtain ⟨c, hfile⟩ := isFile_of_checkSource hitem
    rw [hlink] at hfile
    cases hfile

/-- The manifest of a recognised intake is the one that is there, and names every file below `sources`. -/
theorem recorded_of_prepareExistingIntake {newId : ProductId} {issueNumber : ℕ} {manifest : IntakeManifest}
    {stagingRoot : List Text} {hroot : ProperPath stagingRoot}
    (h : intake.prepareExistingIntake env newId issueNumber v stagingRoot hroot = .ok manifest) :
    (∃ content, v.entry intake.manifestPath = some (.file content) ∧ env.loadManifest content = some manifest) ∧
      (∀ item ∈ manifest.files, (FilePath.ofText item.relativePath).absolute = false ∧
        "..".toList ∉ (FilePath.ofText item.relativePath).parts ∧
          (FilePath.ofText item.relativePath).parts.head? = some "sources".toList) ∧
      ∀ p, intake.sources <+: p → p ≠ intake.sources → v.entry p ≠ none → v.entry p ≠ some .directory →
        ∃ item ∈ manifest.files, p = intake.productRoot ++ (FilePath.ofText item.relativePath).parts := by
  obtain ⟨-, hmetadata, -, -, files, u, recorded, hrecorded, hset⟩ := compared_of_prepareExistingIntake h
  refine ⟨?_, fun item hitem => ?_, fun p hbelow hne hentry hdirectory => ?_⟩
  · unfold metadataAt at hmetadata
    split at hmetadata
    · rename_i content hcontent
      refine ⟨content, hcontent, ?_⟩
      cases hload : env.loadManifest content with
      | none =>
        rw [hload] at hmetadata
        cases hmetadata
      | some loaded =>
        rw [hload] at hmetadata
        cases hmetadata
        rfl
    · cases hmetadata
  · obtain ⟨p, -, hp⟩ := exists_of_mapM_eq_ok hrecorded hitem
    obtain ⟨habsolute, hdots, hhead, -⟩ := path_of_checkSource hp
    exact ⟨habsolute, hdots, hhead⟩
  · have htree : p ∈ sourceTree v intake.sources := by
      unfold sourceTree
      rw [List.mem_filter, decide_eq_true_eq]
      refine ⟨v.complete p hentry, hbelow, hne, ?_⟩
      rw [Workspace.isFile_iff]
      cases hp : v.entry p with
      | none => exact absurd hp hentry
      | some e =>
        cases e with
        | file content => exact Or.inl ⟨content, rfl⟩
        | directory => exact absurd hp hdirectory
        | symlink => exact Or.inr rfl
    obtain ⟨item, hitem, hpath⟩ := mem_of_mapM_eq_ok hrecorded (hset p htree)
    exact ⟨item, hitem, (path_of_checkSource hpath).2.2.2⟩

/-- Without links, a prepared intake is recognised exactly if its description and its sources are its own. -/
private theorem prepareExistingIntake_eq_ok {newId newId' : ProductId} {issueNumber : ℕ} {manifest : IntakeManifest}
    {existing : List (Text × Json)} {stagingRoot : List Text} (hroot : ProperPath stagingRoot)
    (hprepare : intake.prepareIssueEvent env newId issueNumber w = .ok (manifest, v))
    (hexisting : intake.existingConfig env (intake.productId.getD newId) w = .ok existing)
    (hyaml : env.loadConfig (env.dumpConfig
      (.obj (intake.mergedConfig (intake.productId.getD newId) existing))) =
        some (.obj (intake.mergedConfig (intake.productId.getD newId) existing)))
    (hmanifest : env.loadManifest (env.dumpManifest manifest) = some manifest) (hlinks : intake.NoLinks w) :
    intake.prepareExistingIntake env newId' issueNumber v stagingRoot hroot = .ok manifest ↔
      intake.DescriptionKept existing ∧ intake.SourcesOwned w := by
  obtain ⟨existing', hexisting', hdownload, hrecord, hv⟩ := prepareIssueEvent_eq_ok hlinks hprepare
  cases hexisting.symm.trans hexisting'
  obtain ⟨s, hstage, hstaged, hcopied⟩ := stageConfig_total hroot hv.config (hv.effect.crossesLink hlinks.config)
  obtain ⟨existing', hexisting'⟩ := existingConfig_staged newId' hstaged hyaml hcopied
  obtain ⟨⟨canonical, u⟩, hcanonical⟩ := prepareIssueEvent_total issueNumber hdownload hexisting' hstaged
  obtain ⟨_, -, -, hfiles, hu⟩ := prepareIssueEvent_eq_ok hstaged.noLinks hcanonical
  have hid : intake.productId.getD (intake.productId.getD newId) = intake.productId.getD newId := by
    cases intake.productId <;> rfl
  have hvalidate := validateExistingIntake_iff hv hlinks hu hstaged hrecord (congrArg IntakeManifest.files hfiles) hid
    hyaml hmanifest
  unfold prepareExistingIntake
  rw [hstage, ok_bind, mapError_eq_ok.2 hcanonical, ok_bind]
  exact hvalidate

/-- An intake that is recognised has no link left.  On a workspace without links, the intake that was prepared for an
issue is recognised exactly if an issue without a description met no description, and every file below `sources` was
owned. -/
theorem prepareExisting_iff {newId newId' : ProductId} {issueNumber : ℕ} {manifest : IntakeManifest}
    {existing : List (Text × Json)} {stagingRoot : List Text} (hroot : ProperPath stagingRoot)
    (hprepare : intake.prepareIssueEvent env newId issueNumber w = .ok (manifest, v))
    (hexisting : intake.existingConfig env (intake.productId.getD newId) w = .ok existing)
    (hyaml : env.loadConfig (env.dumpConfig
      (.obj (intake.mergedConfig (intake.productId.getD newId) existing))) =
        some (.obj (intake.mergedConfig (intake.productId.getD newId) existing)))
    (hmanifest : env.loadManifest (env.dumpManifest manifest) = some manifest) :
    (intake.prepareExistingIntake env newId' issueNumber v stagingRoot hroot = .ok manifest → intake.NoLinksLeft v) ∧
      (intake.NoLinks w → (intake.prepareExistingIntake env newId' issueNumber v stagingRoot hroot = .ok manifest ↔
        intake.DescriptionKept existing ∧ intake.SourcesOwned w)) :=
  ⟨noLinksLeft_of_prepareExistingIntake, prepareExistingIntake_eq_ok hroot hprepare hexisting hyaml hmanifest⟩

section Warehouse

def warehouseId : ProductId := ⟨"prd_0198f6c2-8ac7-7f31-a48e-1c3d82e9a633".toList, by decide⟩

def warehouseAttachment (role : AttachmentRole) : IntakeAttachment role :=
  match role with
  | .productHtml => ⟨"warehouse.html".toList, "https://github.com/user-attachments/files/1/warehouse.html".toList,
      ".html".toList, by decide⟩
  | .semanticDocument => ⟨"terms.docx".toList, "https://github.com/user-attachments/files/2/terms.docx".toList,
      ".docx".toList, by decide⟩
  | .dictionaryExcel => ⟨"columns.xlsx".toList, "https://github.com/user-attachments/files/3/columns.xlsx".toList,
      ".xlsx".toList, by decide⟩

/-- A new product without a description. -/
def createWarehouse : IssueIntake where
  operation := .create
  productKey := ⟨"warehouse".toList, by decide⟩
  productId := none
  version := ⟨1, one_isVersion⟩
  displayName := "Warehouse".toList
  description := none
  changesetId := none
  attachments := warehouseAttachment
  supported := by decide
  create_new _ := rfl
  update_existing h := nomatch h

/-- An update without a description. -/
private def updateWarehouse : IssueIntake where
  operation := .update
  productKey := ⟨"warehouse".toList, by decide⟩
  productId := some warehouseId
  version := ⟨2, two_isVersion⟩
  displayName := "Warehouse".toList
  description := none
  changesetId := none
  attachments := warehouseAttachment
  supported := by decide
  create_new h := nomatch h
  update_existing _ := nofun

/-- The config of the product, which has a description. -/
private def warehouseConfig : List (Text × Json) :=
  [("operation".toList, .lit "create"), ("product_id".toList, .str warehouseId.text),
    ("product_key".toList, .lit "warehouse"), ("version".toList, .nat 1), ("display_name".toList, .lit "Warehouse"),
    ("description".toList, .lit "Goods in store"), ("changeset_id".toList, .null), ("tables".toList, .arr [])]

def jsonBytes (value : Json) : List ℕ := Text.utf8 (value.dumps .ascii)

def manifestJson (manifest : IntakeManifest) : Json :=
  let file (item : DownloadedAttachment) : Json :=
    .record [("filename", .str item.filename), ("relative_path", .str item.relativePath),
      ("role", match item.role with
        | .productHtml => .lit "product_html"
        | .semanticDocument => .lit "semantic_document"
        | .dictionaryExcel => .lit "dictionary_excel"),
      ("sha256", .str item.sha256.hexdigest), ("size_bytes", .nat item.sizeBytes), ("source_url", .str item.sourceUrl)]
  .record [("files", .arr (manifest.files.map file)), ("issue_number", .nat manifest.issueNumber),
    ("product_id", .str manifest.productId.text), ("product_key", .str manifest.productKey.text),
    ("version", .nat manifest.version)]

/-- An environment that reads back some configs and a manifest as it writes them, and downloads names. -/
def warehouseEnv (configs : List Json) (manifest : IntakeManifest) : IntakeEnvironment where
  links := ⟨fun _ _ => false, fun _ _ => .error Workspace.osError, fun _ _ => .error Workspace.osError,
    fun _ _ _ => .error Workspace.osError, fun _ _ _ => .error Workspace.osError⟩
  dumpConfig := jsonBytes
  loadConfig content := configs.find? fun config => jsonBytes config = content
  dumpManifest manifest := jsonBytes (manifestJson manifest)
  loadManifest content := if jsonBytes (manifestJson manifest) = content then some manifest else none
  download attachment := .ok (Text.utf8 attachment.filename)

private theorem loadConfig_head (config : Json) (configs : List Json) (manifest : IntakeManifest) :
    (warehouseEnv (config :: configs) manifest).loadConfig (jsonBytes config) = some config := by
  simp [warehouseEnv]

private theorem loadConfig_next {config config' : Json} (configs : List Json) (manifest : IntakeManifest)
    (h : jsonBytes config ≠ jsonBytes config') :
    (warehouseEnv (config :: config' :: configs) manifest).loadConfig (jsonBytes config') = some config' := by
  simp [warehouseEnv, h]

private theorem loadManifest_self (configs : List Json) (manifest : IntakeManifest) :
    (warehouseEnv configs manifest).loadManifest ((warehouseEnv configs manifest).dumpManifest manifest) =
      some manifest := by
  simp [warehouseEnv]

def checkoutRoot : List Text := ["home".toList, "checkout".toList]

theorem checkoutRoot_proper : ProperPath checkoutRoot := by decide

def temporaryRoot : List Text := ["tmp".toList, "staging".toList]

def warehouseManifest (intake : IssueIntake) : IntakeManifest :=
  intake.manifest 7 warehouseId (AttachmentRole.all.map fun role =>
    intake.downloaded role (Text.utf8 (intake.attachments role).filename))

/-- A new product in an empty workspace. -/
theorem create_recognised : ∃ v, createWarehouse.prepareIssueEvent
      (warehouseEnv [.obj (createWarehouse.mergedConfig warehouseId [])] (warehouseManifest createWarehouse))
      warehouseId 7 (emptyStaging checkoutRoot (by decide)) = .ok (warehouseManifest createWarehouse, v) ∧
    createWarehouse.prepareExistingIntake
      (warehouseEnv [.obj (createWarehouse.mergedConfig warehouseId [])] (warehouseManifest createWarehouse))
      warehouseId 7 v temporaryRoot (by decide) = .ok (warehouseManifest createWarehouse) := by
  have hw := @staged_emptyStaging createWarehouse checkoutRoot (by decide)
  obtain ⟨⟨manifest, v⟩, hprepare⟩ := @prepareIssueEvent_total createWarehouse
    (warehouseEnv [.obj (createWarehouse.mergedConfig warehouseId [])] (warehouseManifest createWarehouse)) _ warehouseId
    7 [] (fun _ => rfl) rfl hw
  obtain ⟨_, -, -, hmanifest, -⟩ := prepareIssueEvent_eq_ok hw.noLinks hprepare
  have hmanifest : manifest = warehouseManifest createWarehouse := hmanifest
  subst hmanifest
  refine ⟨v, hprepare, ((prepareExisting_iff (by decide) hprepare rfl ?_ ?_).2 hw.noLinks).2 ⟨fun _ => rfl, ?_⟩⟩
  · exact loadConfig_head _ [] _
  · exact loadManifest_self _ _
  · intro p c _ hfile
    cases hfile

/-- The workspace of the product with the description. -/
private def warehouseWorkspace : Workspace :=
  (((emptyStaging checkoutRoot checkoutRoot_proper).put ["products".toList] .directory).put updateWarehouse.productRoot
    .directory).put updateWarehouse.configPath (.file (jsonBytes (.obj warehouseConfig)))

private theorem entry_warehouseWorkspace (q : List Text) : warehouseWorkspace.entry q =
    if q = updateWarehouse.configPath then some (.file (jsonBytes (.obj warehouseConfig)))
    else if q = updateWarehouse.productRoot then some .directory
    else if q = ["products".toList] then some .directory
    else none := by
  unfold warehouseWorkspace
  rw [Workspace.entry_put proper_configPath, Workspace.entry_put proper_productRoot,
    Workspace.entry_put (by decide : ProperPath ["products".toList])]
  rfl

private theorem staged_warehouseWorkspace : updateWarehouse.Staged warehouseWorkspace := by
  have hroot : ∀ q, q = updateWarehouse.productRoot ∨ q = ["products".toList] → updateWarehouse.IsFolder q := by
    rintro q (rfl | rfl)
    · exact Or.inl (mem_prefixes_self (List.cons_ne_nil _ _))
    · exact Or.inl (Workspace.mem_prefixes.2 ⟨⟨[updateWarehouse.productKey.text], rfl⟩, List.cons_ne_nil _ _⟩)
  constructor
  · intro q hq
    rw [entry_warehouseWorkspace] at hq
    split_ifs at hq <;> cases hq
  · intro q c hq
    rw [entry_warehouseWorkspace] at hq
    split_ifs at hq with h
    · exact Or.inl h
    all_goals cases hq
  · intro q hq
    rw [entry_warehouseWorkspace] at hq
    split_ifs at hq with _ h h
    · cases hq
    · exact hroot q (Or.inl h)
    · exact hroot q (Or.inr h)

private def updatedConfigs : List Json :=
  [.obj warehouseConfig, .obj (updateWarehouse.mergedConfig warehouseId warehouseConfig)]

/-- An update without a description keeps the description of the product, and its own config is refused then. -/
theorem update_not_recognised : ∃ v, updateWarehouse.prepareIssueEvent
      (warehouseEnv updatedConfigs (warehouseManifest updateWarehouse)) warehouseId 7 warehouseWorkspace =
        .ok (warehouseManifest updateWarehouse, v) ∧
    updateWarehouse.prepareExistingIntake (warehouseEnv updatedConfigs (warehouseManifest updateWarehouse)) warehouseId
      7 v temporaryRoot (by decide) ≠ .ok (warehouseManifest updateWarehouse) := by
  have hw := staged_warehouseWorkspace
  have hexisting : updateWarehouse.existingConfig
      (warehouseEnv updatedConfigs (warehouseManifest updateWarehouse)) warehouseId warehouseWorkspace =
        .ok warehouseConfig := by
    refine existingConfig_of_file rfl (hw.crossesLink _) ?_ (loadConfig_head _ _ _) (by decide) (by decide)
    rw [entry_warehouseWorkspace, if_pos rfl]
  obtain ⟨⟨manifest, v⟩, hprepare⟩ := @prepareIssueEvent_total updateWarehouse
    (warehouseEnv updatedConfigs (warehouseManifest updateWarehouse)) _ warehouseId 7 warehouseConfig (fun _ => rfl)
    hexisting hw
  obtain ⟨_, -, -, hmanifest, -⟩ := prepareIssueEvent_eq_ok hw.noLinks hprepare
  have hmanifest : manifest = warehouseManifest updateWarehouse := hmanifest
  subst hmanifest
  refine ⟨v, hprepare, fun hrecognised => ?_⟩
  have hdistinct : jsonBytes (.obj warehouseConfig) ≠
      jsonBytes (.obj (updateWarehouse.mergedConfig warehouseId warehouseConfig)) := by
    decide +kernel
  have hkept := ((prepareExistingIntake_eq_ok (by decide) hprepare hexisting (loadConfig_next [] _ hdistinct)
    (loadManifest_self _ _) hw.noLinks).1 hrecognised).1 rfl
  cases hkept

end Warehouse

end IssueIntake

end ArdOssie
