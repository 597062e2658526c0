import ArdOssie.Application.Intake
import ArdOssie.Library.Attempts

/-!
# Attachments

The download of an attachment follows redirects to hosts that are allowed and writes the content to a temporary file
that replaces the destination.
-/

namespace ArdOssie

/-! ### The environment -/

/-- `urllib.parse.SplitResult`; reading the port may raise. -/
structure SplitUrl where
  scheme : Text
  netloc : Text
  username : Option Text
  password : Option Text
  hostname : Option Text
  port : PyResult (Option ℕ)
  path : Text
  query : Text
  fragment : Text

/-- A request with its headers; the names of headers are in lower case. -/
structure AttachmentRequest where
  url : Text
  headers : Dict Text Text

/-- A response: the chunks of its body, and an error that may follow them. -/
structure AttachmentResponse where
  statusCode : ℕ
  headers : Dict Text Text
  chunks : List (List ℕ)
  failure : Option PyError

/-- `response.is_redirect` -/
def AttachmentResponse.isRedirect (response : AttachmentResponse) : Bool :=
  300 ≤ response.statusCode && response.statusCode ≤ 399

/-- `response.is_success` -/
def AttachmentResponse.isSuccess (response : AttachmentResponse) : Bool :=
  200 ≤ response.statusCode && response.statusCode ≤ 299

/-- The operations on files that may fail. -/
inductive FileStep where
  | mkdir
  | create
  | write (chunk : ℕ)
  | sync
  | read
  | replace

/-- A member of an archive, with its expanded and its compressed size. -/
structure ZipMember where
  name : Text
  fileSize : ℕ
  compressSize : ℕ

/-- What a download uses: the standard library, the client, the server and the file system. -/
structure DownloadEnvironment where
  urlsplit : Text → PyResult SplitUrl
  geturl : SplitUrl → Text
  urljoin : Text → Text → PyResult Text
  lower : Text → Text
  /-- `unicodedata.category(c) in {"Cc", "Cf", "Zl", "Zp"}` -/
  controlOrFormat : Char → Bool
  readInt : Text → PyResult ℤ
  /-- `zipfile.ZipFile`; `none` for a `BadZipFile`. -/
  readZip : List ℕ → PyResult (Option (List ZipMember))
  /-- The headers of `build_request`. -/
  buildRequest : Text → PyResult (Dict Text Text)
  /-- The answer to the last request, after all requests so far. -/
  send : List AttachmentRequest → PyResult AttachmentResponse
  /-- The error of an operation that fails. -/
  fault : FileStep → Option PyError
  /-- The random part of the name of a temporary file. -/
  random : Text
  /-- `os.environ.get(_ATTACHMENT_TOKEN_ENV)` -/
  tokenVariable : Option Text

/-- The files, and the requests that were sent. -/
structure DownloadWorld where
  files : List Text → Option (List ℕ)
  requests : List AttachmentRequest

def DownloadWorld.setFile (world : DownloadWorld) (path : List Text) (content : Option (List ℕ)) : DownloadWorld :=
  { world with files := Function.update world.files path content }

/-- A destination: a name in a folder. -/
structure Destination where
  folder : List Text
  name : Text

namespace Destination

variable (target : Destination)

def path : List Text := target.folder ++ [target.name]

/-- `NamedTemporaryFile(dir=target.parent, prefix=f".{target.name}.")` -/
def temporary (random : Text) : List Text := target.folder ++ ['.' :: (target.name ++ '.' :: random)]

/-- `target.as_posix()` -/
def asPosix : Text := ['/'].intercalate target.path

end Destination

/-- An `AttachmentSecurityError`, or another exception. -/
inductive DownloadError where
  | security (message : Text)
  | raised (error : PyError)

abbrev Downloading := Attempt DownloadWorld DownloadError

/-! ### URLs -/

private def securityError (message : String) : DownloadError := .security message.toList

/-- Run a function of the environment. -/
private def calling {α : Type} (r : PyResult α) : Except DownloadError α := r.mapError .raised

/-- `if condition: raise AttachmentSecurityError(message)` -/
private def refuseIf (condition : Bool) (message : Text) : Except DownloadError Unit :=
  if condition then .error (.security message) else .ok ()



private def isHex (c : Char) : Bool := isLowerHex c || ('A' ≤ c && c ≤ 'F')

/-- `[0-9a-f]{8}-[0-9a-f]{4}-[0-9a-f]{4}-[0-9a-f]{4}-[0-9a-f]{12}` -/
def isUuidText (t : Text) : Bool :=
  t.length == 36 && (t.zipIdx.all fun p => if p.2 ∈ [8, 13, 18, 23] then p.1 == '-' else isLowerHex p.1)

/-- `str(UUID(value))` of hexadecimal digits and hyphens -/
def uuidText (value : Text) : PyResult Text :=
  let digits := value.filter fun c => c ≠ '-'
  if digits.length ≠ 32 then .error (.valueError "badly formed hexadecimal UUID string")
  else
    let digits := digits.map Char.toLower
    .ok (['-'].intercalate [digits.take 8, (digits.drop 8).take 4, (digits.drop 12).take 4, (digits.drop 16).take 4,
      digits.drop 20])

/-- `_USER_ASSET_PATH.fullmatch`, with its group -/
def userAsset (path : Text) : Option Text :=
  if "/user-attachments/assets/".toList <+: path then
    some (path.drop "/user-attachments/assets/".toList.length) |>.filter isUuidText
  else none

/-- `_USER_FILE_PATH.fullmatch`, with its second group -/
def userFile (path : Text) : Option Text :=
  if "/user-attachments/files/".toList <+: path then
    let rest := path.drop "/user-attachments/files/".toList.length
    let number := rest.takeWhile fun c => c ≠ '/'
    let name := rest.drop (number.length + 1)
    if number.all Char.isDigit ∧ number ≠ [] ∧ number.head? ≠ some '0' ∧ number.length < rest.length ∧ name ≠ [] ∧
      '/' ∉ name then some name
    else none
  else none

/-- `_MALFORMED_PERCENT_ESCAPE.search` -/
def hasMalformedEscape : Text → Bool
  | [] => false
  | c :: t => (c == '%' && !((t.take 2).length == 2 && (t.take 2).all isHex)) || hasMalformedEscape t

private def hexValue (c : Char) : ℕ := if c.isDigit then c.toNat - 48 else c.toLower.toNat - 87

/-- `unquote_to_bytes` -/
def unquoteToBytes : Text → List ℕ
  | [] => []
  | '%' :: a :: b :: t =>
    if isHex a && isHex b then (16 * hexValue a + hexValue b) :: unquoteToBytes t else 37 :: unquoteToBytes (a :: b :: t)
  | c :: t => Text.utf8Char c ++ unquoteToBytes t

/-- `bytes.decode("utf-8")`; `none` for a `UnicodeDecodeError`. -/
def decodeStrict (bytes : List ℕ) : Option Text :=
  if (Utf8.decode ['\ufffd'] bytes).utf8 = bytes then some (Utf8.decode ['\ufffd'] bytes) else none

section Urls

variable (env : DownloadEnvironment)

/-- `_validate_user_attachment_path` -/
def validateUserAttachmentPath (path : Text) : Except DownloadError Unit :=
  match userAsset path with
  | some value =>
    match uuidText value with
    | .error _ => .error (securityError "UNTRUSTED_ATTACHMENT_PATH")
    | .ok parsed => refuseIf (parsed != value) "UNTRUSTED_ATTACHMENT_PATH".toList
  | none =>
    match userFile path with
    | none => .error (securityError "UNTRUSTED_ATTACHMENT_PATH")
    | some encoded => do
      refuseIf (hasMalformedEscape encoded) "UNTRUSTED_ATTACHMENT_PATH".toList
      match decodeStrict (unquoteToBytes encoded) with
      | none => .error (securityError "UNTRUSTED_ATTACHMENT_PATH")
      | some filename =>
        refuseIf (filename.isEmpty || 255 < filename.length || filename == ['.'] || filename == ['.', '.'] ||
          filename.head? == some '.' || filename.contains '/' || filename.contains '\\' ||
          filename.any env.controlOrFormat) "UNTRUSTED_ATTACHMENT_PATH".toList

/-- `_validate_attachment_transport` -/
def validateAttachmentTransport (url : Text) (allowQuery : Bool) : Except DownloadError SplitUrl := do
  let parsed ← calling (env.urlsplit url)
  refuseIf (env.lower parsed.scheme != "https".toList) "ATTACHMENT_HTTPS_REQUIRED".toList
  refuseIf (parsed.username.any (!·.isEmpty) || parsed.password.any (!·.isEmpty))
    "ATTACHMENT_CREDENTIALS_FORBIDDEN".toList
  refuseIf ((!parsed.query.isEmpty && !allowQuery) || !parsed.fragment.isEmpty) "ATTACHMENT_QUERY_FORBIDDEN".toList
  let port ← calling parsed.port
  refuseIf (port != none && port != some 443) "ATTACHMENT_PORT_FORBIDDEN".toList
  return parsed

/-- `(parsed.hostname or "").lower()` -/
def hostOf (parsed : SplitUrl) : Text := env.lower (parsed.hostname.getD [])

/-- `validate_attachment_url` -/
def validateAttachmentUrl (url : Text) : Except DownloadError Text := do
  let parsed ← validateAttachmentTransport env url false
  refuseIf (hostOf env parsed != "github.com".toList) ("UNTRUSTED_ATTACHMENT_HOST: ".toList ++ hostOf env parsed)
  validateUserAttachmentPath env parsed.path
  return url

/-- `_ASSET_STORAGE_HOST.fullmatch` -/
def isAssetStorageHost (host : Text) : Bool :=
  let start := "github-production-user-asset-".toList
  let stop := ".s3.amazonaws.com".toList
  let middle := (host.drop start.length).take (host.length - start.length - stop.length)
  start.isPrefixOf host && stop.isSuffixOf host && !middle.isEmpty &&
    host == start ++ middle ++ stop && middle.all fun c => ('a' ≤ c && c ≤ 'z') || c.isDigit || c == '-'

/-- `_validate_attachment_redirect_url` -/
def validateAttachmentRedirectUrl (url : Text) : Except DownloadError Text := do
  let parsed ← validateAttachmentTransport env url true
  if hostOf env parsed = "github.com".toList then
    refuseIf (!parsed.query.isEmpty) "ATTACHMENT_QUERY_FORBIDDEN".toList
    validateUserAttachmentPath env parsed.path
    return url
  else if hostOf env parsed = "objects.githubusercontent.com".toList ∨ isAssetStorageHost (hostOf env parsed) = true then
    refuseIf (parsed.path.isEmpty || parsed.path == ['/']) "ATTACHMENT_PATH_FORBIDDEN".toList
    return url
  else .error (.security ("UNTRUSTED_ATTACHMENT_HOST: ".toList ++ hostOf env parsed))

/-- `_resolve_attachment_token` -/
def resolveAttachmentToken (value : Option Text) : Except DownloadError Text :=
  match value.or env.tokenVariable with
  | none => .error (securityError "ATTACHMENT_TOKEN_REQUIRED")
  | some token => if token.strip = [] then .error (securityError "ATTACHMENT_TOKEN_REQUIRED") else .ok token

/-- `_attachment_request_headers` -/
def attachmentRequestHeaders (url token : Text) : PyResult (List (Text × Text)) := do
  let parsed ← env.urlsplit url
  if hostOf env parsed ≠ "github.com".toList then return []
  else return [("authorization".toList, "Bearer ".toList ++ token)]

end Urls

/-! ### Content -/

namespace AttachmentRole

/-- The text of a role. -/
def text : AttachmentRole → Text
  | productHtml => "product_html".toList
  | semanticDocument => "semantic_document".toList
  | dictionaryExcel => "dictionary_excel".toList

/-- The content types that `_validate_content_headers` allows. -/
def contentTypes : AttachmentRole → List Text
  | productHtml => ["text/html".toList, "application/octet-stream".toList, []]
  | semanticDocument =>
    ["application/pdf".toList, "application/vnd.openxmlformats-officedocument.wordprocessingml.document".toList,
      "application/octet-stream".toList, []]
  | dictionaryExcel =>
    ["application/vnd.openxmlformats-officedocument.spreadsheetml.sheet".toList, "application/octet-stream".toList, []]

end AttachmentRole

section Content

variable (env : DownloadEnvironment) {role : AttachmentRole}

/-- `_validate_content_headers` -/
def validateContentHeaders (role : AttachmentRole) (headers : Dict Text Text) (maxBytes : ℤ) :
    Except DownloadError Unit := do
  match headers.lookup "content-length".toList with
  | none | some [] => pure ()
  | some (c :: t) =>
    let length ← calling (env.readInt (c :: t))
    refuseIf (maxBytes < length) "ATTACHMENT_TOO_LARGE".toList
  let contentType := env.lower (((headers.lookup "content-type".toList).getD []).takeWhile fun c => c ≠ ';')
  refuseIf (contentType ∉ role.contentTypes) ("ATTACHMENT_MIME_MISMATCH: ".toList ++ role.text ++ ':' :: contentType)

/-- The check of an archive by its members. -/
def validateArchive (attachment : IntakeAttachment role) (members : List ZipMember) : Except DownloadError Unit := do
  let required := if attachment.suffix = ".docx".toList then "word/document.xml".toList else "xl/workbook.xml".toList
  let expanded := (members.map ZipMember.fileSize).sum
  let compressed := max (members.map ZipMember.compressSize).sum 1
  refuseIf ("[Content_Types].xml".toList ∉ members.map ZipMember.name || required ∉ members.map ZipMember.name)
    ("ATTACHMENT_CONTAINER_MISMATCH: ".toList ++ role.text)
  refuseIf (200 * 1024 * 1024 < expanded || 100 * compressed < expanded) ("ATTACHMENT_ZIP_BOMB: ".toList ++ role.text)

/-- `_validate_downloaded_file` of a file with the given content -/
def validateDownloadedFile (attachment : IntakeAttachment role) (content : List ℕ) : Except DownloadError Unit := do
  let head := content.take 512
  let mismatch := "ATTACHMENT_MAGIC_MISMATCH: ".toList ++ role.text
  if attachment.suffix = ".docx".toList ∨ attachment.suffix = ".xlsx".toList then
    refuseIf (!(Text.utf8 "PK\x03\x04".toList).isPrefixOf head) mismatch
    match ← calling (env.readZip content) with
    | none => .error (.security ("ATTACHMENT_CONTAINER_MISMATCH: ".toList ++ role.text))
    | some members => validateArchive attachment members
  refuseIf (attachment.suffix == ".pdf".toList && !(Text.utf8 "%PDF".toList).isPrefixOf head) mismatch
  refuseIf ((attachment.suffix == ".html".toList || attachment.suffix == ".htm".toList) && !head.contains 60) mismatch

end Content

/-! ### Downloading -/

section Download

variable (env : DownloadEnvironment) {role : AttachmentRole}

/-- An operation on files that may fail. -/
def fileStep (step : FileStep) : Downloading Unit :=
  Attempt.ofResult (match env.fault step with
    | some e => .error (.raised e)
    | none => .ok ())

/-- The chunks are counted, hashed and written; the result is the size and the bytes of the digest. -/
def writeChunks (maxBytes : ℤ) (temporary : List Text) :
    ℕ → ℕ → List ℕ → List (List ℕ) → Downloading (ℕ × List ℕ)
  | _, size, hashed, [] => pure (size, hashed)
  | i, size, hashed, chunk :: chunks => do
    if maxBytes < (size + chunk.length : ℕ) then throw (securityError "ATTACHMENT_TOO_LARGE")
    fileStep env (.write i)
    modify fun world => world.setFile temporary ((world.files temporary).map (· ++ chunk))
    writeChunks maxBytes temporary (i + 1) (size + chunk.length) (hashed ++ chunk) chunks

/-- The temporary file is written, checked and moved to the destination. -/
def storeContent (attachment : IntakeAttachment role) (target : Destination) (maxBytes : ℤ)
    (response : AttachmentResponse) : Downloading DownloadedAttachment := do
  let temporary := target.temporary env.random
  let (size, hashed) ← writeChunks env maxBytes temporary 0 0 [] response.chunks
  Attempt.ofResult (match response.failure with
    | some e => .error (.raised e)
    | none => .ok ())
  fileStep env .sync
  fileStep env .read
  let world ← get
  Attempt.ofResult (validateDownloadedFile env attachment ((world.files temporary).getD []))
  fileStep env .replace
  modify fun world => (world.setFile target.path (world.files temporary)).setFile temporary none
  return ⟨role, attachment.filename, target.asPosix, sha256Bytes hashed, size, attachment.url⟩

/-- The part of `download_attachment` after the checks of a response; a temporary file is new, and it is removed after
an exception. -/
def receive (attachment : IntakeAttachment role) (target : Destination) (maxBytes : ℤ)
    (response : AttachmentResponse) : Downloading DownloadedAttachment := do
  let temporary := target.temporary env.random
  fileStep env .create
  let world ← get
  if (world.files temporary).isSome then throw (.raised (.valueError "No usable temporary file name found"))
  modify fun world => world.setFile temporary (some [])
  Attempt.cleanUp (fun world => world.setFile temporary none) (storeContent env attachment target maxBytes response)

/-- One request of `download_attachment`. -/
def sendRequest (url token : Text) : Downloading AttachmentResponse := do
  let defaults ← Attempt.ofResult (calling (env.buildRequest url))
  let headers ← Attempt.ofResult (calling (attachmentRequestHeaders env url token))
  let request : AttachmentRequest :=
    ⟨url, headers.foldl (fun h p => h.insert p.1 p.2) (defaults.erase "authorization".toList)⟩
  modify fun world => { world with requests := world.requests ++ [request] }
  let world ← get
  Attempt.ofResult (calling (env.send world.requests))

/-- The loop of `download_attachment` with the redirects that are left. -/
def follow (attachment : IntakeAttachment role) (target : Destination) (maxBytes : ℤ) (token : Text) :
    ℕ → Text → Downloading DownloadedAttachment
  | left, url => do
    let response ← sendRequest env url token
    if response.isRedirect then
      match left with
      | 0 => throw (securityError "ATTACHMENT_TOO_MANY_REDIRECTS")
      | left + 1 =>
        match response.headers.lookup "location".toList with
        | none | some [] => throw (securityError "ATTACHMENT_REDIRECT_WITHOUT_LOCATION")
        | some (c :: t) =>
          let joined ← Attempt.ofResult (calling (env.urljoin url (c :: t)))
          let next ← Attempt.ofResult (validateAttachmentRedirectUrl env joined)
          follow attachment target maxBytes token left next
    else if response.isSuccess then
      Attempt.ofResult (validateContentHeaders env role response.headers maxBytes)
      receive env attachment target maxBytes response
    else
      let parsed ← Attempt.ofResult (calling (env.urlsplit url))
      throw (.security ("ATTACHMENT_DOWNLOAD_HTTP_".toList ++ Text.decimal response.statusCode ++ ": ".toList ++
        env.geturl { parsed with query := [], fragment := [] }))

/-- `download_attachment` -/
def downloadAttachment (attachment : IntakeAttachment role) (target : Destination) (maxBytes maxRedirects : ℤ)
    (attachmentToken : Option Text) : Downloading DownloadedAttachment := do
  fileStep env .mkdir
  let url ← Attempt.ofResult (validateAttachmentUrl env attachment.url)
  let token ← Attempt.ofResult (resolveAttachmentToken env attachmentToken)
  if maxRedirects < 0 then throw (.raised .assertionError)
  follow env attachment target maxBytes token maxRedirects.toNat url

end Download

/-! ### Files -/

namespace DownloadWorld

variable (world : DownloadWorld) (path : List Text) (content content' : Option (List ℕ))

@[simp] theorem setFile_requests : (world.setFile path content).requests = world.requests := rfl

@[simp] theorem setFile_self : (world.setFile path content).files path = content := Function.update_self ..

@[simp] theorem setFile_setFile : (world.setFile path content).setFile path content' = world.setFile path content' := by
  unfold setFile
  simp

theorem setFile_comm {path path' : List Text} (h : path ≠ path') :
    (world.setFile path content).setFile path' content' = (world.setFile path' content').setFile path content := by
  unfold setFile
  dsimp only
  rw [Function.update_comm h]

theorem setFile_files_of_ne {path path' : List Text} (h : path' ≠ path) :
    (world.setFile path content).files path' = world.files path' := Function.update_of_ne h ..

theorem setFile_eq_self {path : List Text} {content : Option (List ℕ)} (h : world.files path = content) :
    world.setFile path content = world := by
  unfold setFile
  rw [← h, Function.update_eq_self]

end DownloadWorld

/-- The name of a temporary file is longer than the name of the destination. -/
theorem Destination.temporary_ne_path (target : Destination) (random : Text) : target.temporary random ≠ target.path := by
  intro h
  have hname := List.singleton_inj.1 (List.append_cancel_left h)
  have hlength := congrArg List.length hname
  simp only [List.length_cons, List.length_append] at hlength
  omega

section Files

open Attempt

variable {env : DownloadEnvironment} {role : AttachmentRole} {attachment : IntakeAttachment role} {target : Destination}
  {maxBytes : ℤ} {response : AttachmentResponse}

private theorem fileStep_bind_ends {α : Type} {step : FileStep} {f : Unit → Downloading α} {world : DownloadWorld}
    {Q : Except DownloadError α → DownloadWorld → Prop} (herror : ∀ e, Q (.error e) world) (hok : (f ()).Ends world Q) :
    (fileStep env step >>= f).Ends world Q :=
  ends_ofResult_bind (fun e _ => herror e) fun _ _ => hok

/-- Only the temporary file changes; at the end it has the chunks, which were counted and hashed. -/
private theorem writeChunks_ends {temporary : List Text} {chunks : List (List ℕ)} {i size : ℕ} {hashed content : List ℕ}
    {world : DownloadWorld} (h : world.files temporary = some content) :
    (writeChunks env maxBytes temporary i size hashed chunks).Ends world fun r world' =>
      ∃ content', world' = world.setFile temporary (some content') ∧ ∀ p, r = .ok p →
        content' = content ++ chunks.flatten ∧ p = (size + chunks.flatten.length, hashed ++ chunks.flatten) ∧
          (chunks = [] ∨ (p.1 : ℤ) ≤ maxBytes) := by
  induction chunks generalizing i size hashed content world with
  | nil =>
    refine ends_pure ⟨content, (world.setFile_eq_self h).symm, ?_⟩
    rintro p ⟨⟩
    simp
  | cons chunk chunks ih =>
    unfold writeChunks
    have hsame : ∃ content', world = world.setFile temporary (some content') := ⟨content, (world.setFile_eq_self h).symm⟩
    split
    · obtain ⟨content', hworld⟩ := hsame
      exact ends_throw ⟨content', hworld, fun p hp => by cases hp⟩
    · rename_i hsize
      refine fileStep_bind_ends (fun e => ?_) (ends_modify_bind ?_)
      · obtain ⟨content', hworld⟩ := hsame
        exact ⟨content', hworld, fun p hp => by cases hp⟩
      · rw [h]
        refine (ih (DownloadWorld.setFile_self ..)).mono fun r world' hworld' => ?_
        obtain ⟨content', hcontent', hok⟩ := hworld'
        refine ⟨content', by rw [hcontent', DownloadWorld.setFile_setFile], fun p hp => ?_⟩
        obtain ⟨hcontent, hp, hbound⟩ := hok p hp
        rw [List.flatten_cons, hcontent, hp, List.length_append]
        refine ⟨List.append_assoc .., ?_, Or.inr ?_⟩
        · rw [Nat.add_assoc, List.append_assoc]
        · rcases hbound with rfl | hbound
          · simp only [List.flatten_nil, List.length_nil]
            omega
          · rw [hp] at hbound
            omega

/-- An empty file does not pass the checks of a suffix that is allowed. -/
private theorem validateDownloadedFile_nil (attachment : IntakeAttachment role) :
    validateDownloadedFile env attachment [] ≠ .ok () := by
  obtain ⟨-, -, suffix, hsuffix⟩ := attachment
  have hcases : suffix ∈ [".docx".toList, ".xlsx".toList, ".pdf".toList, ".html".toList, ".htm".toList] := by
    revert hsuffix
    cases role <;> simp only [AttachmentRole.suffixes, List.mem_cons, List.not_mem_nil, or_false] <;> tauto
  simp only [List.mem_cons, List.not_mem_nil, or_false] at hcases
  rcases hcases with rfl | rfl | rfl | rfl | rfl <;> (intro h; cases h)

/-- With an exception only the temporary file changes; otherwise the content of the response is at the destination. -/
private theorem storeContent_ends {world : DownloadWorld} (h : world.files (target.temporary env.random) = some []) :
    (storeContent env attachment target maxBytes response).Ends world fun r world' =>
      match r with
      | .error _ => ∃ content, world' = world.setFile (target.temporary env.random) content
      | .ok downloaded =>
        world' = (world.setFile target.path (some response.chunks.flatten)).setFile (target.temporary env.random) none ∧
          (response.chunks.flatten.length : ℤ) ≤ maxBytes ∧
          downloaded.sha256 = sha256Bytes response.chunks.flatten ∧
          downloaded.sizeBytes = response.chunks.flatten.length := by
  unfold storeContent
  refine ends_bind (writeChunks_ends h) ?_ ?_
  · rintro e world' ⟨content, rfl, -⟩
    exact ⟨_, rfl⟩
  · rintro ⟨size, hashed⟩ world' ⟨content, rfl, hok⟩
    obtain ⟨rfl, hpair, hbound⟩ := hok _ rfl
    cases hpair
    simp only [Nat.zero_add, List.nil_append] at hbound ⊢
    refine ends_ofResult_bind (fun e _ => ⟨_, rfl⟩) fun _ _ => ?_
    refine fileStep_bind_ends (fun e => ⟨_, rfl⟩) (fileStep_bind_ends (fun e => ⟨_, rfl⟩) (ends_get_bind ?_))
    refine ends_ofResult_bind (fun e _ => ⟨_, rfl⟩) fun _ hvalid => ?_
    refine fileStep_bind_ends (fun e => ⟨_, rfl⟩) (ends_modify_bind (ends_pure ?_))
    rw [DownloadWorld.setFile_self, Option.getD_some] at hvalid
    rw [DownloadWorld.setFile_self]
    refine ⟨?_, ?_, rfl, rfl⟩
    · rw [DownloadWorld.setFile_comm _ _ _ (target.temporary_ne_path env.random), DownloadWorld.setFile_setFile]
    · rcases hbound with hnil | hbound
      · rw [hnil] at hvalid
        exact absurd hvalid (validateDownloadedFile_nil attachment)
      · exact hbound

/-- With an exception nothing changes; otherwise the content of the response is at the destination. -/
private theorem receive_ends {world : DownloadWorld} :
    (receive env attachment target maxBytes response).Ends world fun r world' =>
      match r with
      | .error _ => world' = world
      | .ok downloaded =>
        world' = world.setFile target.path (some response.chunks.flatten) ∧
          (response.chunks.flatten.length : ℤ) ≤ maxBytes ∧
          downloaded.sha256 = sha256Bytes response.chunks.flatten ∧
          downloaded.sizeBytes = response.chunks.flatten.length := by
  unfold receive
  refine fileStep_bind_ends (fun e => rfl) (ends_get_bind ?_)
  split
  · exact ends_throw rfl
  · rename_i hfresh
    rw [Bool.not_eq_true, Option.isSome_eq_false_iff, Option.isNone_iff_eq_none] at hfresh
    refine ends_modify_bind (ends_cleanUp (storeContent_ends (DownloadWorld.setFile_self ..)) ?_ ?_)
    · rintro e world' ⟨content, rfl⟩
      rw [DownloadWorld.setFile_setFile, DownloadWorld.setFile_setFile, DownloadWorld.setFile_eq_self _ hfresh]
    · rintro downloaded world' ⟨rfl, hrest⟩
      refine ⟨?_, hrest⟩
      have hne := target.temporary_ne_path env.random
      rw [DownloadWorld.setFile_comm _ _ _ hne, DownloadWorld.setFile_setFile, DownloadWorld.setFile_eq_self]
      rw [DownloadWorld.setFile_files_of_ne _ _ hne, hfresh]

end Files

/-! ### Requests -/

section Requests

variable {env : DownloadEnvironment} {url : Text}

private theorem refuseIf_eq_ok {condition : Bool} {message : Text} {u : Unit} :
    refuseIf condition message = .ok u ↔ condition = false := by
  unfold refuseIf
  split <;> simp_all

/-- A transport without a query is allowed with one. -/
private theorem validateAttachmentTransport_query {parsed : SplitUrl}
    (h : validateAttachmentTransport env url false = .ok parsed) :
    validateAttachmentTransport env url true = .ok parsed ∧ parsed.query = [] := by
  unfold validateAttachmentTransport at h ⊢
  simp only [bind_eq_ok, refuseIf_eq_ok] at h ⊢
  obtain ⟨parsed', hsplit, _, hscheme, _, hcredentials, _, hquery, port, hport, _, hallowed, h⟩ := h
  cases pure_eq_ok.1 h
  rw [Bool.not_false, Bool.and_true, Bool.or_eq_false_iff, Bool.not_eq_false', List.isEmpty_iff] at hquery
  refine ⟨⟨parsed, hsplit, ⟨⟩, hscheme, ⟨⟩, hcredentials, ⟨⟩, ?_, port, hport, ⟨⟩, hallowed, h⟩, hquery.1⟩
  rw [hquery.2, Bool.not_true, Bool.and_false, Bool.or_false]

/-- The URL of an attachment is also allowed for a redirect. -/
theorem validateAttachmentRedirectUrl_of_url {url' : Text} (h : validateAttachmentUrl env url = .ok url') :
    url' = url ∧ validateAttachmentRedirectUrl env url = .ok url := by
  unfold validateAttachmentUrl at h
  simp only [bind_eq_ok, refuseIf_eq_ok] at h
  obtain ⟨parsed, hparsed, _, hhost, _, hpath, h⟩ := h
  rw [bne_eq_false_iff_eq] at hhost
  obtain ⟨htransport, hquery⟩ := validateAttachmentTransport_query hparsed
  refine ⟨(pure_eq_ok.1 h).symm, ?_⟩
  unfold validateAttachmentRedirectUrl
  rw [htransport]
  show (if hostOf env parsed = "github.com".toList then _ else _) = _
  rw [if_pos hhost, hquery, hpath]
  rfl

theorem eq_of_validateAttachmentRedirectUrl {url' : Text} (h : validateAttachmentRedirectUrl env url = .ok url') :
    url' = url := by
  unfold validateAttachmentRedirectUrl at h
  obtain ⟨parsed, -, h⟩ := bind_eq_ok.1 h
  split at h
  · simp only [bind_eq_ok] at h
    obtain ⟨_, -, _, -, h⟩ := h
    exact (pure_eq_ok.1 h).symm
  · split at h
    · simp only [bind_eq_ok] at h
      obtain ⟨_, -, h⟩ := h
      exact (pure_eq_ok.1 h).symm
    · cases h

/-- A request goes to a URL that passed the validation; it has the token when its host is `github.com`, and no
authorization otherwise. -/
def TokenScoped (env : DownloadEnvironment) (token : Text) (request : AttachmentRequest) : Prop :=
  validateAttachmentRedirectUrl env request.url = .ok request.url ∧
    ∃ parsed defaults, env.urlsplit request.url = .ok parsed ∧ env.buildRequest request.url = .ok defaults ∧
      (∀ name, name ≠ "authorization".toList → request.headers.lookup name = defaults.lookup name) ∧
      request.headers.lookup "authorization".toList =
        if hostOf env parsed = "github.com".toList then some ("Bearer ".toList ++ token) else none

open Attempt

private theorem calling_eq_ok {α : Type} {r : PyResult α} {a : α} : calling r = .ok a ↔ r = .ok a := by
  cases r <;> simp [calling, Except.mapError]

/-- Either nothing changes, or one request is sent. -/
private theorem sendRequest_ends {token : Text} {world : DownloadWorld}
    (hurl : validateAttachmentRedirectUrl env url = .ok url) :
    (sendRequest env url token).Ends world fun r world' =>
      (∃ sent, world' = { world with requests := world.requests ++ sent } ∧ sent.length ≤ 1 ∧
        ∀ request ∈ sent, TokenScoped env token request) ∧
      ∀ response, r = .ok response → env.send world'.requests = .ok response := by
  unfold sendRequest
  have hnone : ∃ sent : List AttachmentRequest, world = { world with requests := world.requests ++ sent } ∧
      sent.length ≤ 1 ∧ ∀ request ∈ sent, TokenScoped env token request := ⟨[], by simp, by simp, by simp⟩
  refine ends_ofResult_bind (fun e _ => ⟨hnone, nofun⟩) fun defaults hdefaults => ?_
  refine ends_ofResult_bind (fun e _ => ⟨hnone, nofun⟩) fun headers hheaders => ?_
  refine ends_modify_bind (ends_get_bind (ends_ofResult ⟨⟨_, rfl, le_refl 1, ?_⟩, fun response h => calling_eq_ok.1 h⟩))
  rw [List.forall_mem_singleton]
  obtain ⟨parsed, hparsed, hheaders⟩ := bind_eq_ok.1 (calling_eq_ok.1 hheaders)
  refine ⟨hurl, parsed, defaults, hparsed, calling_eq_ok.1 hdefaults, ?_⟩
  dsimp only
  by_cases hhost : hostOf env parsed = "github.com".toList
  · rw [if_neg (not_not.2 hhost)] at hheaders
    cases pure_eq_ok.1 hheaders
    rw [if_pos hhost, List.foldl_cons, List.foldl_nil]
    refine ⟨fun name hname => ?_, AList.lookup_insert ..⟩
    rw [AList.lookup_insert_ne hname, AList.lookup_erase_ne hname]
  · rw [if_pos hhost] at hheaders
    cases pure_eq_ok.1 hheaders
    rw [if_neg hhost]
    exact ⟨fun name hname => AList.lookup_erase_ne hname, AList.lookup_erase ..⟩

variable {role : AttachmentRole} {attachment : IntakeAttachment role} {target : Destination} {maxBytes : ℤ}

/-- A delivery: the body of a successful answer to the last request is at the destination, and nothing else changed. -/
def Delivered (env : DownloadEnvironment) (target : Destination) (maxBytes : ℤ) (world world' : DownloadWorld)
    (downloaded : DownloadedAttachment) : Prop :=
  ∃ response, env.send world'.requests = .ok response ∧ response.isSuccess = true ∧
    world'.files = Function.update world.files target.path (some response.chunks.flatten) ∧
    (response.chunks.flatten.length : ℤ) ≤ maxBytes ∧ downloaded.sha256 = sha256Bytes response.chunks.flatten ∧
    downloaded.sizeBytes = response.chunks.flatten.length

/-- At most the given number of requests are sent, each in the scope of the token; the files change with a delivery
only. -/
def Contained (env : DownloadEnvironment) (target : Destination) (maxBytes : ℤ) (token : Text) (limit : ℕ)
    (world : DownloadWorld) (r : Except DownloadError DownloadedAttachment) (world' : DownloadWorld) : Prop :=
  (∃ sent, world'.requests = world.requests ++ sent ∧ sent.length ≤ limit ∧
    ∀ request ∈ sent, TokenScoped env token request) ∧
  match r with
  | .error _ => world'.files = world.files
  | .ok downloaded => Delivered env target maxBytes world world' downloaded

/-- A redirect is one more request. -/
private theorem Contained.redirected {token : Text} {limit : ℕ} {world world' : DownloadWorld}
    {sent : List AttachmentRequest} {r : Except DownloadError DownloadedAttachment} (hsent : sent.length ≤ 1)
    (hscoped : ∀ request ∈ sent, TokenScoped env token request)
    (h : Contained env target maxBytes token limit { world with requests := world.requests ++ sent } r world') :
    Contained env target maxBytes token (limit + 1) world r world' := by
  obtain ⟨⟨later, hrequests, hlater, hlaterScoped⟩, hfiles⟩ := h
  refine ⟨⟨sent ++ later, by rw [hrequests, List.append_assoc], ?_, ?_⟩, hfiles⟩
  · rw [List.length_append]
    omega
  · exact List.forall_mem_append.2 ⟨hscoped, hlaterScoped⟩

private theorem contained_error {token : Text} {limit : ℕ} {world : DownloadWorld} (e : DownloadError) :
    Contained env target maxBytes token limit world (.error e) world :=
  ⟨⟨[], by simp, by simp, by simp⟩, rfl⟩

/-- A response that is no redirect. -/
private theorem finish_ends {token : Text} {limit : ℕ} {world : DownloadWorld} {response : AttachmentResponse}
    (hsend : env.send world.requests = .ok response) :
    (if response.isSuccess = true then do
        ofResult (validateContentHeaders env role response.headers maxBytes)
        receive env attachment target maxBytes response
      else do
        let parsed ← ofResult (calling (env.urlsplit url))
        throw (.security ("ATTACHMENT_DOWNLOAD_HTTP_".toList ++ Text.decimal response.statusCode ++ ": ".toList ++
          env.geturl { parsed with query := [], fragment := [] })) : Downloading DownloadedAttachment).Ends world
      (Contained env target maxBytes token limit world) := by
  split
  · rename_i hsuccess
    refine ends_ofResult_bind (fun e _ => contained_error e) fun _ _ => receive_ends.mono fun r world' h => ?_
    cases r with
    | error e =>
      cases h
      exact contained_error e
    | ok downloaded =>
      obtain ⟨rfl, hbound, hdigest, hsize⟩ := h
      exact ⟨⟨[], by simp, by simp, by simp⟩, response, hsend, hsuccess, rfl, hbound, hdigest, hsize⟩
  · exact ends_ofResult_bind (fun e _ => contained_error e) fun _ _ => ends_throw (contained_error _)

/-- The loop, by induction on the redirects that are left. -/
private theorem follow_ends {token : Text} {left : ℕ} {world : DownloadWorld}
    (hurl : validateAttachmentRedirectUrl env url = .ok url) :
    (follow env attachment target maxBytes token left url).Ends world
      (Contained env target maxBytes token (left + 1) world) := by
  induction left generalizing url world with
  | zero =>
    unfold follow
    refine ends_bind (sendRequest_ends hurl) ?_ ?_
    · rintro e world' ⟨⟨sent, rfl, hsent, hscoped⟩, -⟩
      exact (contained_error e).redirected hsent hscoped
    · rintro response world' ⟨⟨sent, rfl, hsent, hscoped⟩, hsend⟩
      split
      · exact ends_throw ((contained_error _).redirected hsent hscoped)
      · exact (finish_ends (hsend response rfl)).mono fun r world' h => h.redirected hsent hscoped
  | succ left ih =>
    unfold follow
    refine ends_bind (sendRequest_ends hurl) ?_ ?_
    · rintro e world' ⟨⟨sent, rfl, hsent, hscoped⟩, -⟩
      exact (contained_error e).redirected hsent hscoped
    · rintro response world' ⟨⟨sent, rfl, hsent, hscoped⟩, hsend⟩
      split
      · dsimp only
        split
        · exact ends_throw ((contained_error _).redirected hsent hscoped)
        · exact ends_throw ((contained_error _).redirected hsent hscoped)
        · refine ends_ofResult_bind (fun e _ => (contained_error e).redirected hsent hscoped) fun joined _ => ?_
          refine ends_ofResult_bind (fun e _ => (contained_error e).redirected hsent hscoped) fun next hnext => ?_
          cases eq_of_validateAttachmentRedirectUrl hnext
          exact (ih hnext).mono fun r world' h => h.redirected hsent hscoped
      · exact (finish_ends (hsend response rfl)).mono fun r world' h => h.redirected hsent hscoped

/-- A download sends at most one request more than the redirects that are allowed, each to a URL that passed the
validation and with the token for `github.com` only.  With an exception no file changes; otherwise the destination has
the chunks of the last response, and the result has their digest and their size, which is within the bound. -/
theorem downloadAttachment_contained (env : DownloadEnvironment) (attachment : IntakeAttachment role)
    (target : Destination) (maxBytes maxRedirects : ℤ) (attachmentToken : Option Text) (world : DownloadWorld) :
    (downloadAttachment env attachment target maxBytes maxRedirects attachmentToken).Ends world fun r world' =>
      ∃ token, (∀ t, resolveAttachmentToken env attachmentToken = .ok t → t = token) ∧
        Contained env target maxBytes token (maxRedirects + 1).toNat world r world' := by
  have hresolved : ∃ token, ∀ t, resolveAttachmentToken env attachmentToken = .ok t → t = token := by
    cases resolveAttachmentToken env attachmentToken with
    | error e => exact ⟨[], nofun⟩
    | ok token => exact ⟨token, fun t h => (Except.ok.inj h).symm⟩
  obtain ⟨token, htoken⟩ := hresolved
  unfold downloadAttachment
  refine fileStep_bind_ends (fun e => ⟨token, htoken, contained_error _⟩) ?_
  refine ends_ofResult_bind (fun e _ => ⟨token, htoken, contained_error e⟩) fun url hurl => ?_
  refine ends_ofResult_bind (fun e _ => ⟨token, htoken, contained_error e⟩) fun t ht => ?_
  cases htoken t ht
  obtain ⟨rfl, hvalid⟩ := validateAttachmentRedirectUrl_of_url hurl
  split
  · exact ends_throw ⟨token, htoken, contained_error _⟩
  · have hlimit : (maxRedirects + 1).toNat = maxRedirects.toNat + 1 := by omega
    rw [hlimit]
    exact (follow_ends hvalid).mono fun r world' h => ⟨token, htoken, h⟩

end Requests

end ArdOssie
