import ArdOssie.Application.Attachments
import ArdOssie.Library.RegexPieces

/-!
# Issue forms

The body of an issue is a heading and a value for each field of the form.  It is cut at every heading, also at one that
stands inside of a value.
-/

namespace ArdOssie

/-! ### Fields -/

inductive IssueField where
  | operation
  | productKey
  | productId
  | version
  | displayName
  | description
  | changesetId
  | productHtml
  | semanticDocument
  | dictionaryExcel
  | changeReason
  deriving DecidableEq

namespace IssueField

/-- The fields in the order of the form. -/
def all : List IssueField :=
  [operation, productKey, productId, version, displayName, description, changesetId, productHtml, semanticDocument,
    dictionaryExcel, changeReason]

/-- The headings of `_FIELD_NAMES`. -/
def heading : IssueField → Text
  | operation => "Operation".toList
  | productKey => "Product key".toList
  | productId => "Existing product ID".toList
  | version => "Requested version".toList
  | displayName => "Display name".toList
  | description => "Description".toList
  | changesetId => "Changeset ID".toList
  | productHtml => "Product HTML".toList
  | semanticDocument => "Semantic document".toList
  | dictionaryExcel => "Data dictionary".toList
  | changeReason => "Change reason".toList

/-- The names of `_FIELD_NAMES`. -/
def name : IssueField → String
  | operation => "operation"
  | productKey => "product_key"
  | productId => "product_id"
  | version => "version"
  | displayName => "display_name"
  | description => "description"
  | changesetId => "changeset_id"
  | productHtml => "product_html"
  | semanticDocument => "semantic_document"
  | dictionaryExcel => "dictionary_excel"
  | changeReason => "change_reason"

/-- `_FIELD_NAMES.get` -/
def ofHeading (t : Text) : Option IssueField := all.find? fun f => f.heading = t

/-- The required fields, sorted by their names. -/
def required : List IssueField :=
  [changeReason, dictionaryExcel, displayName, operation, productHtml, productKey, semanticDocument, version]

theorem mem_all (f : IssueField) : f ∈ all := by cases f <;> decide

theorem nodup_all : all.Nodup := by decide

theorem ofHeading_heading (f : IssueField) : ofHeading f.heading = some f := by cases f <;> decide

end IssueField

/-- What the form shows for a blank value. -/
def noResponse : Text := "_No response_".toList

/-! ### Reading -/

section Pattern

open Regex

private def notNewline (c : Char) : Bool := c ≠ '\n'

/-- A blank and the end of the line behind it. -/
private def lineEnd : Regex := seq (star (char Text.isSpace)) (notAhead (char notNewline))

/-- `^###\s+(.+?)\s*$`; the title is taken to the end of its line, which does not change where a match ends. -/
def headingPattern : Regex :=
  seq (notBehind notNewline) (seq (char fun c => c == '#') (seq (char fun c => c == '#') (seq (char fun c => c == '#')
    (seq (char Text.isSpace) (seq (star (char Text.isSpace)) (seq (char notNewline)
      (seq (star (char notNewline)) lineEnd)))))))

end Pattern

/-- One heading of `parse_issue_body`, with the text up to the next one; the stripped title is the stripped text behind
the number signs. -/
def readHeading (fields : Dict IssueField Text) (piece : Text × Text) : PyResult (Dict IssueField Text) :=
  let heading := Text.strip (piece.1.drop 3)
  match IssueField.ofHeading heading with
  | none => .ok fields
  | some field =>
    if (fields.lookup field).isSome then
      .error (.valueError ("DUPLICATE_ISSUE_FIELD: " ++ String.ofList heading))
    else .ok (fields.insert field (if piece.2.strip = noResponse then [] else piece.2.strip))

/-- The loop of `parse_issue_body` -/
def issueFields (body : Text) : PyResult (Dict IssueField Text) :=
  (headingPattern.pieces body).foldlM readHeading ∅

/-- `parse_issue_body` on a record that also has the reason of the change. -/
structure ParsedIntake extends IssueIntake where
  changeReason : Text

/-- What the parser uses, with `Path(filename).name` and `Path(filename).suffix.lower()`. -/
structure FormEnvironment extends DownloadEnvironment where
  pathName : Text → Text
  pathSuffix : Text → Text

/-- The field of an attachment. -/
def AttachmentRole.field : AttachmentRole → IssueField
  | productHtml => .productHtml
  | semanticDocument => .semanticDocument
  | dictionaryExcel => .dictionaryExcel

/-- `_MARKDOWN_LINK_PATTERN.fullmatch`, with its groups -/
def markdownLink (value : Text) : Option (Text × Text) :=
  match value.strip with
  | '[' :: rest =>
    let filename := rest.takeWhile fun c => c ≠ ']'
    let url := (rest.drop (filename.length + 2)).takeWhile fun c => !Text.isSpace c && c ≠ ')'
    if filename ≠ [] ∧ "https://".toList <+: url ∧ "https://".toList.length < url.length ∧
        rest = filename ++ "](".toList ++ url ++ [')'] then some (filename, url)
    else none
  | _ => none

/-- `str.removeprefix("v")` -/
def withoutV : Text → Text
  | 'v' :: t => t
  | t => t

/-- `value or None` -/
def optional (value : Text) : Option Text := if value = [] then none else some value

/-- `Operation(value)` -/
def Operation.parse (t : Text) : Option Operation :=
  [Operation.create, .update, .retire].find? fun operation => operation.text.toList = t

section Intake

variable (env : FormEnvironment)

/-- `_parse_attachment` -/
def parseAttachment (role : AttachmentRole) (value : Text) : Except DownloadError (IntakeAttachment role) :=
  match markdownLink value with
  | none => .error (.raised (.valueError ("INVALID_ATTACHMENT_MARKDOWN: " ++ String.ofList role.text)))
  | some (filename, url) =>
    if env.pathName filename ≠ filename ∨ filename.head? = some '.' then
      .error (.security ("UNSAFE_ATTACHMENT_FILENAME: ".toList ++ filename))
    else validateAttachmentUrl env.toDownloadEnvironment url >>= fun _ =>
    if h : env.pathSuffix filename ∈ role.suffixes then .ok ⟨filename, url, env.pathSuffix filename, h⟩
    else .error (.security ("ATTACHMENT_EXTENSION_MISMATCH: ".toList ++ role.text))

/-- A field that has to be valid. -/
def validField {α : Type} (field : String) : Option α → PyResult α
  | some a => .ok a
  | none => .error (.validationError [field])

/-- The product id, which may be absent. -/
def validProductId : Option Text → PyResult (Option ProductId)
  | none => .ok none
  | some t => (validField "product_id" (EntityId.parse "prd_" t)).map some

/-- The validation of an `IssueIntake`. -/
def validateIntake (operation productKey : Text) (productId : Option Text) (version : ℤ) (displayName : Text)
    (description changesetId : Option Text) (changeReason : Text)
    (attachments : (role : AttachmentRole) → IntakeAttachment role) : PyResult ParsedIntake := do
  raiseIf (env.lower operation = "create".toList ∧ productId.any (fun t => t.strip ≠ []))
    (.validationError ["PRODUCT_ID_FORBIDDEN_FOR_CREATE"])
  let operation ← validField "operation" (Operation.parse operation)
  let productKey ← validField "product_key" (ProductKey.parse productKey)
  let productId ← validProductId productId
  if hversion : 1 ≤ version.toNat ∧ version.toNat ≤ 999 then
    if hretire : operation = .retire then .error (.validationError ["RETIRE_NOT_SUPPORTED"])
    else if hupdate : operation = .update ∧ productId = none then
      .error (.validationError ["PRODUCT_ID_REQUIRED_FOR_UPDATE"])
    else if hcreate : operation = .create ∧ productId ≠ none then
      .error (.validationError ["PRODUCT_ID_FORBIDDEN_FOR_CREATE"])
    else .ok ⟨⟨operation, productKey, productId, ⟨version.toNat, hversion⟩, displayName, description, changesetId, attachments,
      hretire, fun h => not_not.1 fun hne => hcreate ⟨h, hne⟩, fun h hnone => hupdate ⟨h, hnone⟩⟩, changeReason⟩
  else .error (.validationError ["version"])

/-- `parse_issue_body` after its loop -/
def intakeOfFields (fields : Dict IssueField Text) : Except DownloadError ParsedIntake := do
  let get := fun field => (fields.lookup field).getD []
  match IssueField.required.find? fun field => get field = [] with
  | some field => .error (.raised (.valueError ("MISSING_ISSUE_FIELD: " ++ field.name)))
  | none =>
    let productHtml ← parseAttachment env .productHtml (get .productHtml)
    let semanticDocument ← parseAttachment env .semanticDocument (get .semanticDocument)
    let dictionaryExcel ← parseAttachment env .dictionaryExcel (get .dictionaryExcel)
    let version ← (env.readInt (withoutV (get .version))).mapError fun _ => .raised (.valueError "INVALID_REQUESTED_VERSION")
    (validateIntake env (env.lower (get .operation)) (get .productKey) (optional (get .productId)) version
      (get .displayName) (optional (get .description)) (optional (get .changesetId)) (get .changeReason)
      fun
        | .productHtml => productHtml
        | .semanticDocument => semanticDocument
        | .dictionaryExcel => dictionaryExcel).mapError .raised

/-- `parse_issue_body` -/
def parseIssueBody (body : Text) : Except DownloadError ParsedIntake := do
  let fields ← (issueFields body).mapError .raised
  intakeOfFields env fields

end Intake

/-! ### The form -/

/-- What the form shows for a value. -/
def formText (value : Text) : Text := if value.strip = [] then noResponse else value

/-- A heading line and the value. -/
def renderField (values : IssueField → Text) (field : IssueField) : Text :=
  "### ".toList ++ field.heading ++ '\n' :: (formText (values field) ++ ['\n'])

/-- The fields with a blank line between them. -/
def renderFields (values : IssueField → Text) : List IssueField → Text
  | [] => []
  | [field] => renderField values field
  | field :: field' :: fields => renderField values field ++ '\n' :: renderFields values (field' :: fields)

/-- The body of an issue. -/
def renderForm (values : IssueField → Text) : Text := renderFields values IssueField.all

/-! ### Headings inside of values -/

/-- Whether three number signs at the beginning of a line are a heading with this text behind them: a blank follows, and
then a title or, up to the end, a blank in the place of one. -/
def opensHeading (t : Text) : Bool :=
  let blank := t.takeWhile Text.isSpace
  !blank.isEmpty && (decide (blank.length < t.length) || blank.tail.any fun c => c ≠ '\n')

/-- No line of a text begins with a heading, when the text is followed by an ending. -/
def HeadingFree (value ending : Text) : Prop :=
  ∀ before after, value = before ++ "###".toList ++ after → (∀ c ∈ before.getLast?, c = '\n') →
    opensHeading (after ++ ending) = false

section Matches

open Regex

private theorem isSpace_newline : Text.isSpace '\n' = true := by decide

private theorem notNewline_iff {c : Char} : notNewline c = true ↔ c ≠ '\n' := by simp [notNewline]

private theorem ends_notAhead {previous : Option Char} {tail : Text} (h : ∀ c ∈ tail.head?, c = '\n') :
    (notAhead (char notNewline)).ends ⟨previous, tail⟩ = [⟨previous, tail⟩] := by
  cases tail with
  | nil => rfl
  | cons c tail =>
    cases h c rfl
    rfl

private theorem mem_ends_notAhead {c c' : Cursor} (h : c' ∈ (notAhead (char notNewline)).ends c) :
    c' = c ∧ ∀ x ∈ c.rest.head?, x = '\n' := by
  rw [ends] at h
  split at h
  · rename_i hempty
    refine ⟨List.mem_singleton.1 h, fun x hx => ?_⟩
    by_contra hne
    obtain ⟨rest, hrest⟩ := List.head?_eq_some_iff.1 hx
    have hmem : (⟨some x, rest⟩ : Cursor) ∈ (char notNewline).ends c :=
      mem_ends_char.2 ⟨x, hrest, notNewline_iff.2 hne, rfl⟩
    rw [List.isEmpty_iff.1 hempty] at hmem
    cases hmem
  · cases h

/-- A line ends behind a blank, before a newline or at the end. -/
private theorem mem_ends_lineEnd {c c' : Cursor} (h : c' ∈ lineEnd.ends c) :
    ∃ ws, c.rest = ws ++ c'.rest ∧ (∀ x ∈ ws, Text.isSpace x = true) ∧ ∀ x ∈ c'.rest.head?, x = '\n' := by
  obtain ⟨c₁, hc₁, hc'⟩ := mem_ends_seq.1 h
  obtain ⟨ws, hws, hall, -⟩ := mem_ends_star_char.1 hc₁
  obtain ⟨rfl, htail⟩ := mem_ends_notAhead hc'
  exact ⟨ws, hws, hall, htail⟩

private theorem matches_lineEnd {previous : Option Char} {ws tail : Text} (hws : ∀ x ∈ ws, Text.isSpace x = true)
    (htail : ∀ x ∈ tail.head?, x = '\n') : lineEnd.Matches ⟨previous, ws ++ tail⟩ := by
  rw [lineEnd, matches_seq_star]
  exact ⟨ws, tail, rfl, hws, _, by rw [ends_notAhead htail]; exact List.mem_singleton_self _⟩

private theorem takeWhile_newline (t : Text) :
    ∃ line tail, t = line ++ tail ∧ (∀ x ∈ line, notNewline x = true) ∧ ∀ x ∈ tail.head?, x = '\n' := by
  refine ⟨t.takeWhile notNewline, t.dropWhile notNewline, List.takeWhile_append_dropWhile.symm, fun x hx =>
    List.mem_takeWhile_imp hx, fun x hx => ?_⟩
  have h := List.head?_dropWhile_not notNewline t
  rw [Option.mem_def.1 hx] at h
  by_contra hne
  exact absurd (notNewline_iff.2 hne) (by simpa using h)

/-- What follows the number signs is a blank, a title and the rest of its line. -/
private theorem opensHeading_iff {t : Text} : opensHeading t = true ↔
    ∃ x blank c rest, t = x :: (blank ++ c :: rest) ∧ (∀ y ∈ x :: blank, Text.isSpace y = true) ∧ c ≠ '\n' := by
  unfold opensHeading
  constructor
  · intro h
    rw [Bool.and_eq_true, Bool.not_eq_true', List.isEmpty_eq_false_iff] at h
    obtain ⟨hne, h⟩ := h
    obtain ⟨x, blank, hblank⟩ := List.exists_cons_of_ne_nil hne
    have hspace : ∀ y ∈ x :: blank, Text.isSpace y = true := fun y hy => by
      rw [← hblank] at hy
      exact List.mem_takeWhile_imp hy
    have ht : t = x :: (blank ++ t.dropWhile Text.isSpace) := by
      rw [← List.cons_append, ← hblank, List.takeWhile_append_dropWhile]
    rw [hblank] at h
    rcases Bool.or_eq_true_iff.1 h with h | h
    · cases hrest : t.dropWhile Text.isSpace with
      | nil =>
        have hlength := of_decide_eq_true h
        rw [ht, hrest, List.append_nil] at hlength
        exact absurd hlength (lt_irrefl _)
      | cons c rest =>
        have hc := List.head?_dropWhile_not Text.isSpace t
        rw [hrest] at hc
        refine ⟨x, blank, c, rest, by rw [ht, hrest], hspace, ?_⟩
        rintro rfl
        simp [isSpace_newline] at hc
    · obtain ⟨c, hc, hnewline⟩ := List.any_eq_true.1 h
      obtain ⟨first, second, rfl⟩ := List.append_of_mem (show c ∈ blank from hc)
      refine ⟨x, first, c, second ++ t.dropWhile Text.isSpace, ht.trans (by simp), fun y hy => hspace y ?_,
        of_decide_eq_true hnewline⟩
      rw [List.mem_cons] at hy ⊢
      exact hy.imp_right (List.mem_append_left _)
  · rintro ⟨x, blank, c, rest, rfl, hspace, hc⟩
    obtain ⟨hx, hblank⟩ := List.forall_mem_cons.1 hspace
    rw [List.takeWhile_cons_of_pos hx, List.takeWhile_append_of_pos hblank]
    simp only [List.isEmpty_cons, Bool.not_false, Bool.true_and, List.tail_cons, Bool.or_eq_true, decide_eq_true_eq]
    by_cases hspace' : Text.isSpace c = true
    · right
      rw [List.takeWhile_cons_of_pos hspace', List.any_append, List.any_cons, decide_eq_true hc]
      simp
    · left
      rw [List.takeWhile_cons_of_neg hspace']
      simp

/-- A heading starts at the beginning of a line. -/
private theorem matches_headingPattern {previous : Option Char} {t : Text} : headingPattern.Matches ⟨previous, t⟩ ↔
    (∀ c ∈ previous, c = '\n') ∧ ∃ u, t = "###".toList ++ u ∧ opensHeading u = true := by
  have hprevious : previous.any notNewline = false ↔ ∀ c ∈ previous, c = '\n' := by
    cases previous <;> simp [notNewline]
  rw [headingPattern, matches_seq_notBehind, hprevious]
  refine and_congr_right fun _ => ?_
  simp only [matches_seq_char, matches_seq_star, beq_iff_eq]
  constructor
  · rintro ⟨_, _, rfl, rfl, _, _, rfl, rfl, _, _, rfl, rfl, x, _, rfl, hx, blank, _, rfl, hblank, c, rest, rfl, hc, -⟩
    refine ⟨_, rfl, opensHeading_iff.2 ⟨x, blank, c, rest, rfl, List.forall_mem_cons.2 ⟨hx, hblank⟩, ?_⟩⟩
    exact notNewline_iff.1 hc
  · rintro ⟨u, rfl, hu⟩
    obtain ⟨x, blank, c, rest, rfl, hspace, hc⟩ := opensHeading_iff.1 hu
    obtain ⟨hx, hblank⟩ := List.forall_mem_cons.1 hspace
    obtain ⟨line, tail, rfl, hline, htail⟩ := takeWhile_newline rest
    refine ⟨_, _, rfl, rfl, _, _, rfl, rfl, _, _, rfl, rfl, x, _, rfl, hx, blank, _, rfl, hblank, c, _, rfl,
      notNewline_iff.2 hc, line, tail, rfl, hline, ?_⟩
    exact @matches_lineEnd _ [] tail (by simp) htail

/-- The match of a heading line ends in the blank behind its title, before a newline or at the end. -/
private theorem matchLength_heading {previous : Option Char} {c : Char} {title u : Text}
    (hprevious : ∀ x ∈ previous, x = '\n') (hspace : Text.isSpace c = false) (htitle : ∀ x ∈ c :: title, notNewline x = true) :
    ∃ ws tail, '\n' :: u = ws ++ tail ∧ (∀ x ∈ ws, Text.isSpace x = true) ∧ (∀ x ∈ tail.head?, x = '\n') ∧
      headingPattern.matchLength ⟨previous, "### ".toList ++ c :: (title ++ '\n' :: u)⟩ =
        some ("### ".toList ++ c :: (title ++ ws)).length := by
  obtain ⟨hc, htitle⟩ := List.forall_mem_cons.1 htitle
  have hbehind : previous.any notNewline = false := by
    cases previous with
    | none => rfl
    | some x =>
      cases hprevious x rfl
      rfl
  have hend : ∀ x ∈ ('\n' :: u).head?, notNewline x = false := by
    rintro _ ⟨⟩
    rfl
  have hline : ∀ p, lineEnd.Matches ⟨p, '\n' :: u⟩ := fun p =>
    @matches_lineEnd p [] ('\n' :: u) (by simp) (by rintro _ ⟨⟩; rfl)
  have htail : ∀ p, (seq (star (char notNewline)) lineEnd).Matches ⟨p, title ++ '\n' :: u⟩ := fun p =>
    matches_seq_star.2 ⟨title, '\n' :: u, rfl, htitle, hline _⟩
  have hblank : ∀ x ∈ (c :: (title ++ '\n' :: u)).head?, Text.isSpace x = false := by
    rintro _ ⟨⟩
    exact hspace
  have hhead : ∃ p, (headingPattern.ends ⟨previous, "### ".toList ++ c :: (title ++ '\n' :: u)⟩).head? =
      (lineEnd.ends ⟨p, '\n' :: u⟩).head? := by
    refine ⟨title.getLast?.or (some c), ?_⟩
    show (headingPattern.ends ⟨previous, '#' :: '#' :: '#' :: ' ' :: c :: (title ++ '\n' :: u)⟩).head? = _
    rw [headingPattern, ends_seq_notBehind hbehind, ends_seq_char rfl, ends_seq_char rfl, ends_seq_char rfl,
      ends_seq_char (by decide), ← List.nil_append (c :: (title ++ '\n' :: u)),
      head?_ends_seq_star (by simp) hblank (matches_seq_char.2 ⟨c, _, rfl, hc, htail _⟩), ends_seq_char hc,
      head?_ends_seq_star htitle hend (hline _)]
  obtain ⟨p, hhead⟩ := hhead
  obtain ⟨c', hc'⟩ := hline p
  obtain ⟨first, hfirst⟩ : ∃ first, (lineEnd.ends ⟨p, '\n' :: u⟩).head? = some first :=
    Option.isSome_iff_exists.1 (List.isSome_head?.2 (List.ne_nil_of_mem hc'))
  obtain ⟨ws, hws, hall, htail'⟩ := mem_ends_lineEnd (List.mem_of_head? hfirst)
  have hws' : '\n' :: u = ws ++ first.rest := hws
  refine ⟨ws, first.rest, hws', hall, htail', ?_⟩
  rw [matchLength, hhead, hfirst, hws']
  simp only [Option.map_some, List.length_append, List.length_cons]
  congr 1
  omega

end Matches

/-! ### Stripped texts -/

private theorem strip_surround {a t b : Text} (ha : ∀ c ∈ a, Text.isSpace c = true) (hb : ∀ c ∈ b, Text.isSpace c = true) :
    Text.strip (a ++ t ++ b) = Text.strip t := by
  unfold Text.strip
  rw [List.append_assoc, List.dropWhile_append_of_pos ha]
  cases hdrop : t.dropWhile Text.isSpace with
  | nil =>
    have hall : ∀ c ∈ t ++ b, Text.isSpace c = true :=
      List.forall_mem_append.2 ⟨List.dropWhile_eq_nil_iff.1 hdrop, hb⟩
    rw [List.dropWhile_eq_nil_iff.2 hall]
  | cons c rest =>
    have hne : (t.dropWhile Text.isSpace).isEmpty = false := by rw [hdrop]; rfl
    rw [List.dropWhile_append, hne, hdrop]
    show List.rdropWhile _ (c :: rest ++ b) = _
    unfold List.rdropWhile
    rw [List.reverse_append, List.dropWhile_append_of_pos fun x hx => hb x (List.mem_reverse.1 hx)]

private theorem strip_nil_of_isSpace {t : Text} (h : ∀ c ∈ t, Text.isSpace c = true) : Text.strip t = [] := by
  unfold Text.strip
  rw [List.dropWhile_eq_nil_iff.2 h]
  rfl

private theorem exists_core {t : Text} (h : t.strip ≠ []) :
    ∃ lead d core, t = lead ++ d :: core ∧ (∀ c ∈ lead, Text.isSpace c = true) ∧ Text.isSpace d = false := by
  cases hdrop : t.dropWhile Text.isSpace with
  | nil => exact absurd (strip_nil_of_isSpace (List.dropWhile_eq_nil_iff.1 hdrop)) h
  | cons d core =>
    have hd := List.head?_dropWhile_not Text.isSpace t
    rw [hdrop] at hd
    refine ⟨t.takeWhile Text.isSpace, d, core, ?_, fun c hc => List.mem_takeWhile_imp hc, by simpa using hd⟩
    rw [← hdrop, List.takeWhile_append_dropWhile]

/-- A text before a character that is no blank is shorter. -/
private theorem strip_length_lt {d : Char} (hd : Text.isSpace d = false) (t rest : Text) :
    (Text.strip t).length < (Text.strip (t ++ d :: rest)).length := by
  have hkeep : ∀ x : Text, x.length < (List.rdropWhile Text.isSpace (x ++ d :: rest)).length := by
    intro x
    have hsplit : x ++ d :: rest = (x ++ [d]) ++ rest := by simp
    have hstarts : x ++ [d] <+: List.rdropWhile Text.isSpace (x ++ d :: rest) := by
      rw [hsplit]
      unfold List.rdropWhile
      rw [List.reverse_append, List.dropWhile_append]
      split
      · rw [List.reverse_append, List.reverse_singleton, List.singleton_append,
          List.dropWhile_cons_of_neg (by rw [hd]; decide)]
        simp
      · rw [List.reverse_append, List.reverse_reverse]
        exact List.prefix_append _ _
    have := hstarts.length_le
    rw [List.length_append, List.length_singleton] at this
    omega
  unfold Text.strip
  cases hdrop : t.dropWhile Text.isSpace with
  | nil =>
    rw [List.dropWhile_append_of_pos (List.dropWhile_eq_nil_iff.1 hdrop), List.dropWhile_cons_of_neg (by rw [hd]; decide)]
    exact hkeep []
  | cons c core =>
    have hne : (t.dropWhile Text.isSpace).isEmpty = false := by rw [hdrop]; rfl
    rw [List.dropWhile_append, hne, hdrop]
    exact (List.rdropWhile_prefix Text.isSpace (c :: core)).length_le.trans_lt (hkeep (c :: core))

/-! ### One field -/

section Field

open Regex

/-- Three number signs in a value that newlines follow. -/
private theorem value_place {v newlines rest a b u : Text} (hnewlines : ∀ c ∈ newlines, c = '\n') (hne : newlines ≠ [])
    (hsplit : v ++ newlines = a ++ b) (hb : b ≠ []) (hu : b ++ rest = "###".toList ++ u) :
    ∃ after, v = a ++ "###".toList ++ after ∧ u = after ++ (newlines ++ rest) := by
  rcases List.append_eq_append_iff.1 hsplit with ⟨z, rfl, hz⟩ | ⟨z, rfl, rfl⟩
  · obtain ⟨c, b, rfl⟩ := List.exists_cons_of_ne_nil hb
    cases hnewlines c (by rw [hz]; simp)
    cases hu
  · rw [List.append_assoc] at hu
    rcases List.append_eq_append_iff.1 hu with ⟨y, hy, hrest⟩ | ⟨after, rfl, rfl⟩
    · cases y with
      | nil =>
        rw [List.append_nil] at hy
        refine ⟨[], ?_, ?_⟩
        · rw [List.append_nil, hy]
        · rw [← List.nil_append u, ← hrest, List.nil_append]
      | cons c y =>
        obtain ⟨d, newlines, rfl⟩ := List.exists_cons_of_ne_nil hne
        cases hnewlines d (by simp)
        have hhead : '\n' = c := (List.cons.inj hrest).1
        cases hhead
        have hmem : '\n' ∈ "###".toList := by
          rw [hy]
          simp
        exact absurd hmem (by decide)
    · exact ⟨after, by rw [List.append_assoc], rfl⟩

private theorem isSpace_of_newlines {t : Text} (h : ∀ c ∈ t, c = '\n') : ∀ c ∈ t, Text.isSpace c = true := by
  intro c hc
  rw [h c hc]
  exact isSpace_newline

private theorem advances_headingPattern : headingPattern.Advances := (advances_seq_char _ _).notBehind _

/-- The blank behind a title ends before the line in which a value begins. -/
private theorem blank_split {v rest ws tail : Text} (hv : v.strip ≠ []) (hsplit : '\n' :: (v ++ rest) = ws ++ tail)
    (hws : ∀ c ∈ ws, Text.isSpace c = true) (htail : ∀ c ∈ tail.head?, c = '\n') :
    ∃ line, '\n' :: v = ws ++ '\n' :: line ∧ tail = '\n' :: (line ++ rest) := by
  obtain ⟨lead, d, core, rfl, hlead, hd⟩ := exists_core hv
  have hne : d ≠ '\n' := by
    rintro rfl
    rw [isSpace_newline] at hd
    cases hd
  have hsplit' : ('\n' :: lead) ++ (d :: core ++ rest) = ws ++ tail := by
    rw [← hsplit, List.cons_append, List.append_assoc]
  rcases List.append_eq_append_iff.1 hsplit' with ⟨z, rfl, hz⟩ | ⟨z, hz, rfl⟩
  · cases z with
    | nil =>
      rw [List.nil_append] at hz
      rw [← hz] at htail
      exact absurd (htail d rfl) hne
    | cons c z =>
      have hc : d = c := (List.cons.inj hz).1
      have hspace := hws c (by simp)
      rw [← hc, hd] at hspace
      cases hspace
  · cases z with
    | nil => exact absurd (htail d rfl) hne
    | cons c z =>
      cases htail c rfl
      refine ⟨z ++ d :: core, ?_, by simp⟩
      rw [← List.cons_append, hz, List.append_assoc]
      rfl

/-- A heading and its value in the body: the value is read to its end when no line of it begins with a heading, and to
the first such line otherwise. -/
private theorem field_pieces {c : Char} {title v newlines rest : Text} {previous : Option Char}
    (hprevious : ∀ x ∈ previous, x = '\n') (hc : Text.isSpace c = false) (htitle : ∀ x ∈ c :: title, notNewline x = true)
    (hstrip : Text.strip (c :: title) = c :: title) (hv : v.strip ≠ []) (hnewlines : ∀ x ∈ newlines, x = '\n')
    (hne : newlines ≠ []) :
    ∃ w text more, headingPattern.piecesFrom 0 previous
        ("### ".toList ++ c :: (title ++ '\n' :: (v ++ (newlines ++ rest)))) = ([], (w, text) :: more) ∧
      Text.strip (w.drop 3) = c :: title ∧
      ((HeadingFree v (newlines ++ rest) ∧ ∃ line last, Text.strip line = v.strip ∧ (∀ x ∈ last, x = '\n') ∧
          text = line ++ (headingPattern.piecesFrom 0 last rest).1 ∧
          more = (headingPattern.piecesFrom 0 last rest).2) ∨
        ¬ HeadingFree v (newlines ++ rest) ∧ '#' ∈ v ∧ (Text.strip text).length < v.strip.length) := by
  obtain ⟨ws, tail, hsplit, hws, htail, hlength⟩ :=
    @matchLength_heading previous c title (v ++ (newlines ++ rest)) hprevious hc htitle
  obtain ⟨line, hline, rfl⟩ := blank_split hv hsplit hws htail
  have hbody : "### ".toList ++ c :: (title ++ '\n' :: (v ++ (newlines ++ rest))) =
      ("### ".toList ++ c :: (title ++ ws)) ++ (('\n' :: (line ++ newlines)) ++ rest) := by
    rw [hsplit]
    simp
  have hall : '\n' :: (v ++ newlines) = ws ++ '\n' :: (line ++ newlines) := by
    rw [← List.cons_append, hline]
    simp
  rw [hbody] at hlength
  rw [hbody, piecesFrom_of_match (by simp) hlength]
  have hheading : Text.strip (("### ".toList ++ c :: (title ++ ws)).drop 3) = c :: title := by
    have hdrop : ("### ".toList ++ c :: (title ++ ws)).drop 3 = [' '] ++ (c :: title) ++ ws := rfl
    rw [hdrop, strip_surround (List.all_eq_true.1 (by decide)) hws, hstrip]
  refine ⟨_, _, _, rfl, hheading, ?_⟩
  generalize ("### ".toList ++ c :: (title ++ ws)).getLast?.or previous = last
  -- a place where a match starts is a place of the value
  have hplace : ∀ a b, '\n' :: (line ++ newlines) = a ++ b → b ≠ [] →
      headingPattern.Matches ⟨a.getLast?.or last, b ++ rest⟩ → ∃ before after, '\n' :: before = ws ++ a ∧
        v = before ++ "###".toList ++ after ∧ (∀ x ∈ before.getLast?, x = '\n') ∧
        opensHeading (after ++ (newlines ++ rest)) = true := by
    intro a b hab hb hmatch
    obtain ⟨hstart, u, hu, hopens⟩ := matches_headingPattern.1 hmatch
    obtain ⟨x, a, rfl⟩ : ∃ x a', a = x :: a' := by
      refine List.exists_cons_of_ne_nil ?_
      rintro rfl
      rw [List.nil_append] at hab
      rw [← hab] at hu
      cases hu
    have hwa : ws ++ (x :: a) ≠ [] := by simp
    obtain ⟨y, before, hbefore⟩ := List.exists_cons_of_ne_nil hwa
    have hsplit' : '\n' :: (v ++ newlines) = y :: (before ++ b) := by
      rw [hall, hab, ← List.append_assoc, hbefore]
      rfl
    obtain ⟨rfl, hvalue⟩ := List.cons.inj hsplit'
    obtain ⟨after, hafter, rfl⟩ := value_place hnewlines hne hvalue hb hu
    refine ⟨before, after, hbefore.symm, hafter, fun z hz => hstart z ?_, hopens⟩
    have hlast : (ws ++ x :: a).getLast? = some z := by
      rw [hbefore, List.getLast?_cons, Option.mem_def.1 hz]
      rfl
    rw [List.getLast?_append_cons] at hlast
    rw [hlast]
    rfl
  rcases free_or_first (r := headingPattern) ('\n' :: (line ++ newlines)) rest last with
    hfree | ⟨a, b, hab, hb, hmatch, hfree⟩
  · left
    rw [piecesFrom_append_of_free hfree]
    refine ⟨?_, '\n' :: (line ++ newlines), _, ?_, ?_, rfl, rfl⟩
    · intro before after hafter hstart
      by_contra hopens
      rw [Bool.not_eq_false] at hopens
      obtain ⟨a, ha⟩ : ∃ a, '\n' :: before = ws ++ a := by
        have hboth : ('\n' :: before) ++ ("###".toList ++ after ++ newlines) = ws ++ '\n' :: (line ++ newlines) := by
          rw [← hall, hafter]
          simp
        rcases List.append_eq_append_iff.1 hboth with ⟨z, rfl, hz⟩ | ⟨z, hz, -⟩
        · cases z with
          | nil => exact ⟨[], by simp⟩
          | cons x z =>
            have hx : '#' = x := (List.cons.inj hz).1
            have hspace := hws x (by simp)
            rw [← hx] at hspace
            exact absurd hspace (by decide)
        · exact ⟨z, hz⟩
      have hrest : '\n' :: (line ++ newlines) = a ++ ("###".toList ++ after ++ newlines) := by
        refine @List.append_cancel_left _ ws _ _ ?_
        rw [← hall, ← List.append_assoc, ← ha, hafter]
        simp
      refine hfree a _ hrest (by simp) (matches_headingPattern.2 ⟨fun x hx => ?_, after ++ (newlines ++ rest), ?_, hopens⟩)
      · obtain ⟨y, a, rfl⟩ : ∃ y a', a = y :: a' := by
          refine List.exists_cons_of_ne_nil ?_
          rintro rfl
          cases hrest
        rw [List.getLast?_eq_some_getLast (List.cons_ne_nil y a), Option.some_or, Option.mem_some_iff] at hx
        have hlast : (ws ++ y :: a).getLast? = some x := by
          rw [List.getLast?_append_cons, List.getLast?_eq_some_getLast (List.cons_ne_nil y a), hx]
        rw [← ha, List.getLast?_cons, Option.some_inj] at hlast
        cases hbefore : before.getLast? with
        | none =>
          rw [hbefore] at hlast
          exact hlast.symm
        | some z =>
          rw [hbefore] at hlast
          exact hlast ▸ hstart z hbefore
      · simp
    · calc Text.strip ('\n' :: (line ++ newlines))
          = Text.strip (ws ++ '\n' :: (line ++ newlines) ++ []) := (strip_surround hws (by simp)).symm
        _ = Text.strip (['\n'] ++ v ++ newlines) := by rw [List.append_nil, ← hall]; rfl
        _ = v.strip := strip_surround (by simp [isSpace_newline]) (isSpace_of_newlines hnewlines)
    · intro x hx
      obtain ⟨y, newlines, rfl⟩ := List.exists_cons_of_ne_nil hne
      rw [← List.cons_append, List.getLast?_append_cons, List.getLast?_eq_some_getLast (List.cons_ne_nil y newlines),
        Option.some_or, Option.mem_some_iff] at hx
      exact hnewlines x (hx ▸ List.getLast_mem _)
  · right
    obtain ⟨before, after, hbefore, hafter, hstart, hopens⟩ := hplace a b hab hb hmatch
    refine ⟨fun h => ?_, by rw [hafter]; simp, ?_⟩
    · rw [h before after hafter hstart] at hopens
      cases hopens
    · rw [hab, List.append_assoc, piecesFrom_append_of_free hfree]
      dsimp only
      rw [piecesFrom_fst_of_matches advances_headingPattern hmatch, List.append_nil]
      have hstripped : Text.strip a = Text.strip before := by
        calc Text.strip a = Text.strip (ws ++ a ++ []) := (strip_surround hws (by simp)).symm
          _ = Text.strip (['\n'] ++ before ++ []) := by rw [← hbefore]; simp
          _ = Text.strip before := strip_surround (by simp [isSpace_newline]) (by simp)
      have hsharp : v = before ++ '#' :: ('#' :: '#' :: after) := by
        rw [hafter]
        simp
      rw [hstripped, hsharp]
      exact strip_length_lt (by decide) before _

end Field

/-! ### All fields -/

section Form

open Regex

variable {values : IssueField → Text}

private theorem heading_spec (f : IssueField) : ∃ c title, f.heading = c :: title ∧ Text.isSpace c = false ∧
    (∀ x ∈ c :: title, notNewline x = true) ∧ Text.strip (c :: title) = c :: title := by
  cases f <;> exact ⟨_, _, rfl, by decide, List.all_eq_true.1 (by decide), by decide⟩

private theorem strip_formText_ne_nil (v : Text) : Text.strip (formText v) ≠ [] := by
  unfold formText
  split
  · decide
  · assumption

/-- No value has a line that begins with a heading, when the value is followed by the rest of the form. -/
private def AllFree (values : IssueField → Text) : List IssueField → Prop
  | [] => True
  | [f] => HeadingFree (formText (values f)) ['\n']
  | f :: f' :: fs =>
    HeadingFree (formText (values f)) (['\n', '\n'] ++ renderFields values (f' :: fs)) ∧ AllFree values (f' :: fs)

/-- A piece is a field with its value. -/
private def ReadsField (values : IssueField → Text) (f : IssueField) (piece : Text × Text) : Prop :=
  Text.strip (piece.1.drop 3) = f.heading ∧ piece.2.strip = Text.strip (formText (values f))

/-- The pieces are the fields with their values, or after some fields one is read in part. -/
private theorem renderFields_pieces {fs : List IssueField} (hfs : fs ≠ []) {previous : Option Char}
    (hprevious : ∀ x ∈ previous, x = '\n') : ∃ ps, headingPattern.piecesFrom 0 previous (renderFields values fs) = ([], ps) ∧
      (AllFree values fs ∧ List.Forall₂ (ReadsField values) fs ps ∨
        ¬ AllFree values fs ∧ ∃ before f after ps' w text more, fs = before ++ f :: after ∧ ps = ps' ++ (w, text) :: more ∧
          List.Forall₂ (ReadsField values) before ps' ∧ Text.strip (w.drop 3) = f.heading ∧ '#' ∈ formText (values f) ∧
            (Text.strip text).length < (Text.strip (formText (values f))).length) := by
  induction fs generalizing previous with
  | nil => exact absurd rfl hfs
  | cons f fs ih =>
    obtain ⟨c, title, hheading, hc, htitle, hstrip⟩ := heading_spec f
    have hv := strip_formText_ne_nil (values f)
    cases fs with
    | nil =>
      obtain ⟨w, text, more, hpieces, hw, hcases⟩ :=
        @field_pieces c title _ ['\n'] [] previous hprevious hc htitle hstrip hv (by simp) (by simp)
      have hbody : renderFields values [f] =
          "### ".toList ++ c :: (title ++ '\n' :: (formText (values f) ++ (['\n'] ++ []))) := by
        rw [renderFields, renderField, hheading]
        simp
      rw [← hheading] at hw
      refine ⟨_, by rw [hbody, hpieces], ?_⟩
      rcases hcases with ⟨hfree, line, last, hline, -, rfl, rfl⟩ | ⟨hfree, hsharp, hshort⟩
      · refine Or.inl ⟨hfree, List.Forall₂.cons ⟨hw, ?_⟩ List.Forall₂.nil⟩
        show Text.strip (line ++ []) = _
        rw [List.append_nil, hline]
      · exact Or.inr ⟨hfree, [], f, [], [], w, text, more, rfl, rfl, List.Forall₂.nil, hw, hsharp, hshort⟩
    | cons f' fs =>
      obtain ⟨w, text, more, hpieces, hw, hcases⟩ :=
        @field_pieces c title _ ['\n', '\n'] (renderFields values (f' :: fs)) previous hprevious hc htitle hstrip hv
          (by simp) (by simp)
      have hbody : renderFields values (f :: f' :: fs) = "### ".toList ++ c :: (title ++ '\n' ::
          (formText (values f) ++ (['\n', '\n'] ++ renderFields values (f' :: fs)))) := by
        rw [renderFields, renderField, hheading]
        simp
      rw [← hheading] at hw
      rw [hbody, hpieces]
      rcases hcases with ⟨hfree, line, last, hline, hlast, rfl, rfl⟩ | ⟨hfree, hsharp, hshort⟩
      · obtain ⟨ps, hps, hrest⟩ := ih (List.cons_ne_nil _ _) hlast
        rw [hps]
        have hfirst : ReadsField values f (w, line ++ []) := ⟨hw, by rw [List.append_nil, hline]⟩
        refine ⟨_, rfl, ?_⟩
        rcases hrest with ⟨hall, hreads⟩ | ⟨hnot, before, g, after, ps', w', text, more, hsplit, rfl, hreads, hg, hsharp, hshort⟩
        · exact Or.inl ⟨⟨hfree, hall⟩, hreads.cons hfirst⟩
        · refine Or.inr ⟨fun h => hnot h.2, f :: before, g, after, _ :: ps', w', text, more, by rw [hsplit]; rfl, rfl,
            hreads.cons hfirst, hg, hsharp, hshort⟩
      · exact ⟨_, rfl, Or.inr ⟨fun h => hfree h.1, [], f, f' :: fs, [], w, text, more, rfl, rfl, List.Forall₂.nil, hw,
          hsharp, hshort⟩⟩

private theorem readHeading_heading {f : IssueField} {w text : Text} (hw : Text.strip (w.drop 3) = f.heading)
    (fields : Dict IssueField Text) : readHeading fields (w, text) =
      if (fields.lookup f).isSome then .error (.valueError ("DUPLICATE_ISSUE_FIELD: " ++ String.ofList f.heading))
      else .ok (fields.insert f (if text.strip = noResponse then [] else text.strip)) := by
  unfold readHeading
  dsimp only
  rw [hw, IssueField.ofHeading_heading]

/-- A field that was read is kept. -/
private theorem foldlM_keeps {ps : List (Text × Text)} {fields fields' : Dict IssueField Text} {f : IssueField} {t : Text}
    (h : ps.foldlM readHeading fields = .ok fields') (hf : fields.lookup f = some t) : fields'.lookup f = some t := by
  induction ps generalizing fields with
  | nil =>
    cases pure_eq_ok.1 h
    exact hf
  | cons p ps ih =>
    rw [List.foldlM_cons] at h
    obtain ⟨next, hnext, h⟩ := bind_eq_ok.1 h
    refine ih h ?_
    unfold readHeading at hnext
    dsimp only at hnext
    split at hnext
    · cases hnext
      exact hf
    · rename_i g _
      split at hnext
      · cases hnext
      · rename_i hnone
        cases hnext
        have hne : f ≠ g := by
          rintro rfl
          rw [hf] at hnone
          exact hnone rfl
        rw [AList.lookup_insert_ne hne, hf]

/-- Pieces of distinct fields are read. -/
private theorem foldlM_reads {fs : List IssueField} {ps : List (Text × Text)} (hreads : List.Forall₂ (ReadsField values) fs ps)
    (hnodup : fs.Nodup) {fields : Dict IssueField Text} (hfields : ∀ f ∈ fs, fields.lookup f = none) :
    ∃ fields', ps.foldlM readHeading fields = .ok fields' ∧
      (∀ f ∈ fs, fields'.lookup f = some (if Text.strip (formText (values f)) = noResponse then [] else
        Text.strip (formText (values f)))) ∧ ∀ f ∉ fs, fields'.lookup f = fields.lookup f := by
  induction hreads generalizing fields with
  | nil => exact ⟨fields, rfl, by simp, fun f _ => rfl⟩
  | @cons f p fs ps hp _ ih =>
    obtain ⟨hnone, hrest⟩ := List.forall_mem_cons.1 hfields
    obtain ⟨hf, hnodup⟩ := List.nodup_cons.1 hnodup
    obtain ⟨w, text⟩ := p
    have hstep := @readHeading_heading f w text hp.1 fields
    have htext : text.strip = Text.strip (formText (values f)) := hp.2
    rw [hnone, htext] at hstep
    obtain ⟨fields', hfold, hread, hkeep⟩ := @ih hnodup (fields.insert f (if Text.strip (formText (values f)) = noResponse then [] else
        Text.strip (formText (values f)))) fun g hg => by
      have hne : g ≠ f := fun h => hf (h ▸ hg)
      rw [AList.lookup_insert_ne hne, hrest g hg]
    refine ⟨fields', ?_, List.forall_mem_cons.2 ⟨?_, hread⟩, fun g hg => ?_⟩
    · rw [List.foldlM_cons, hstep]
      exact hfold
    · rw [hkeep f hf, AList.lookup_insert]
    · rw [List.mem_cons, not_or] at hg
      rw [hkeep g hg.2, AList.lookup_insert_ne hg.1]

/-- Whether a heading is opened does not depend on what follows the next title. -/
private theorem opensHeading_sharp (t rest rest' : Text) :
    opensHeading (t ++ '#' :: rest) = opensHeading (t ++ '#' :: rest') := by
  have hblank : ∀ r : Text, (t ++ '#' :: r).takeWhile Text.isSpace = t.takeWhile Text.isSpace := by
    intro r
    rw [List.takeWhile_append, List.takeWhile_cons_of_neg (by decide), List.append_nil]
    split
    · rename_i hall
      exact ((List.takeWhile_prefix _).eq_of_length hall).symm
    · rfl
  have hlength : ∀ r : Text, (t.takeWhile Text.isSpace).length < (t ++ '#' :: r).length := by
    intro r
    have hle := (List.takeWhile_prefix Text.isSpace (l := t)).length_le
    rw [List.length_append, List.length_cons]
    omega
  unfold opensHeading
  rw [hblank, hblank]
  dsimp only
  rw [decide_eq_true (hlength rest), decide_eq_true (hlength rest')]

private theorem headingFree_sharp {v : Text} {newlines : Text} (rest rest' : Text) :
    HeadingFree v (newlines ++ '#' :: rest) ↔ HeadingFree v (newlines ++ '#' :: rest') := by
  unfold HeadingFree
  refine forall_congr' fun before => forall_congr' fun after => forall_congr' fun _ => forall_congr' fun _ => ?_
  rw [← List.append_assoc, ← List.append_assoc, opensHeading_sharp]

/-- A blank value has no line that begins with a heading, and neither has what the form shows for it. -/
private theorem headingFree_formText {v ending : Text} : HeadingFree (formText v) ending ↔ HeadingFree v ending := by
  unfold formText
  split
  · rename_i hblank
    have hsharp : ∀ t : Text, '#' ∉ t → HeadingFree t ending := by
      rintro t ht before after rfl
      exact absurd (by simp) ht
    refine ⟨fun _ => hsharp v fun hmem => ?_, fun _ => hsharp _ (by decide)⟩
    obtain ⟨before, after, rfl⟩ := List.append_of_mem hmem
    have hlt := strip_length_lt (show Text.isSpace '#' = false by decide) before after
    rw [hblank] at hlt
    exact absurd hlt (Nat.not_lt_zero _)
  · rfl

private theorem renderFields_sharp (f : IssueField) (fs : List IssueField) :
    ∃ rest, renderFields values (f :: fs) = '#' :: rest := by
  cases fs <;> exact ⟨_, rfl⟩

private theorem allFree_iff (fs : List IssueField) (last : IssueField) : AllFree values (fs ++ [last]) ↔
    (∀ f ∈ fs, HeadingFree (values f) "\n\n###".toList) ∧ HeadingFree (values last) ['\n'] := by
  induction fs with
  | nil => simp [AllFree, headingFree_formText]
  | cons f fs ih =>
    obtain ⟨g, gs, hgs⟩ : ∃ g gs, fs ++ [last] = g :: gs := List.exists_cons_of_ne_nil (by simp)
    obtain ⟨rest, hrest⟩ := @renderFields_sharp values g gs
    have hfree : HeadingFree (formText (values f)) (['\n', '\n'] ++ renderFields values (g :: gs)) ↔
        HeadingFree (values f) "\n\n###".toList := by
      rw [hrest, headingFree_formText]
      exact headingFree_sharp _ "##".toList
    rw [hgs] at ih
    rw [List.cons_append, hgs, AllFree, ih, hfree, List.forall_mem_cons, and_assoc]

end Form

/-- The text behind a value: a blank line and the next heading, or the end. -/
def fieldEnding (f : IssueField) : Text := if f = .changeReason then ['\n'] else "\n\n###".toList

/-- No value has a line that begins with a heading, and none reads as what the form shows for a blank one. -/
def FormSafe (values : IssueField → Text) : Prop :=
  ∀ f, HeadingFree (values f) (fieldEnding f) ∧ Text.strip (values f) ≠ noResponse

section Form

variable {values : IssueField → Text}

private theorem allFree_all : AllFree values IssueField.all ↔ ∀ f, HeadingFree (values f) (fieldEnding f) := by
  have hsplit : IssueField.all = IssueField.all.dropLast ++ [.changeReason] := rfl
  have hmem : ∀ f : IssueField, f ∈ IssueField.all.dropLast ↔ f ≠ .changeReason := fun f => by cases f <;> decide
  rw [hsplit, allFree_iff]
  constructor
  · rintro ⟨hfree, hlast⟩ f
    unfold fieldEnding
    split
    · rename_i hf
      exact hf ▸ hlast
    · rename_i hf
      exact hfree f ((hmem f).2 hf)
  · intro h
    refine ⟨fun f hf => ?_, h .changeReason⟩
    have hfree := h f
    rwa [fieldEnding, if_neg ((hmem f).1 hf)] at hfree

/-- The fields that are read are the stripped values exactly when the values are safe. -/
theorem issueFields_exact_iff {fields : Dict IssueField Text} (h : issueFields (renderForm values) = .ok fields) :
    (∀ f, fields.lookup f = some (Text.strip (values f))) ↔ FormSafe values := by
  obtain ⟨ps, hps, hcases⟩ := @renderFields_pieces values IssueField.all (by decide) none (by simp)
  unfold issueFields at h
  rw [Regex.pieces, renderForm, hps] at h
  rcases hcases with ⟨hfree, hreads⟩ | ⟨hfree, before, f, after, ps', w, text, more, hsplit, rfl, hreads, hw, hsharp, hshort⟩
  · obtain ⟨fields', hfold, hread, -⟩ :=
      @foldlM_reads values _ _ hreads IssueField.nodup_all ∅ fun f _ => AList.lookup_empty f
    cases hfold.symm.trans h
    have hlookup : ∀ f, fields.lookup f = some (Text.strip (values f)) ↔ Text.strip (values f) ≠ noResponse := by
      intro f
      rw [hread f (IssueField.mem_all f), Option.some_inj]
      unfold formText
      by_cases hblank : Text.strip (values f) = []
      · rw [if_pos hblank, hblank]
        decide
      · rw [if_neg hblank]
        split
        · rename_i hresponse
          rw [hresponse]
          decide
        · rename_i hresponse
          exact ⟨fun _ => hresponse, fun _ => rfl⟩
    have hall := allFree_all.1 hfree
    constructor
    · exact fun hexact f => ⟨hall f, (hlookup f).1 (hexact f)⟩
    · exact fun hsafe f => (hlookup f).2 (hsafe f).2
  · constructor
    · intro hexact
      have hnodup := IssueField.nodup_all
      rw [hsplit, List.nodup_append] at hnodup
      obtain ⟨hbefore, -, hdisjoint⟩ := hnodup
      have hf : f ∉ before := fun hmem => hdisjoint f hmem f (by simp) rfl
      obtain ⟨middle, hmiddle, -, hkeep⟩ := @foldlM_reads values _ _ hreads hbefore ∅ fun f _ => AList.lookup_empty f
      rw [List.foldlM_append, hmiddle, ok_bind, List.foldlM_cons, readHeading_heading hw, hkeep f hf, AList.lookup_empty] at h
      have hread := foldlM_keeps h (AList.lookup_insert _)
      rw [hexact f, Option.some_inj] at hread
      unfold formText at hsharp hshort
      split at hsharp
      · exact absurd hsharp (by decide)
      · rename_i hblank
        rw [if_neg hblank] at hshort
        split at hread
        · exact absurd hread hblank
        · rw [hread] at hshort
          exact absurd hshort (lt_irrefl _)
    · exact fun hsafe => absurd (allFree_all.2 fun f => (hsafe f).1) hfree

end Form

/-! ### The intake -/

/-- An intake has the texts of the fields. -/
structure ParsedIntake.Shows (env : FormEnvironment) (texts : IssueField → Text) (intake : ParsedIntake) : Prop where
  operation : intake.operation.text.toList = env.lower (texts .operation)
  productKey : intake.productKey.text = texts .productKey
  productId : intake.productId.map EntityId.text = optional (texts .productId)
  version : env.readInt (withoutV (texts .version)) = .ok (intake.version.val : ℤ)
  displayName : intake.displayName = texts .displayName
  description : intake.description = optional (texts .description)
  changesetId : intake.changesetId = optional (texts .changesetId)
  changeReason : intake.changeReason = texts .changeReason
  attachments : ∀ role, markdownLink (texts role.field) =
    some ((intake.attachments role).filename, (intake.attachments role).url)

section Intake

variable {env : FormEnvironment}

private theorem parseAttachment_eq_ok {role : AttachmentRole} {value : Text} {attachment : IntakeAttachment role}
    (h : parseAttachment env role value = .ok attachment) :
    markdownLink value = some (attachment.filename, attachment.url) := by
  unfold parseAttachment at h
  split at h
  · cases h
  · rename_i filename url hlink
    split at h
    · cases h
    · obtain ⟨_, -, h⟩ := bind_eq_ok.1 h
      split at h
      · cases h
        exact hlink
      · cases h

private theorem validField_eq_ok {α : Type} {field : String} {o : Option α} {a : α} (h : validField field o = .ok a) :
    o = some a := by
  cases o with
  | none => cases h
  | some b =>
    cases h
    rfl

private theorem validProductId_eq_ok {t : Option Text} {i : Option ProductId} (h : validProductId t = .ok i) :
    i.map EntityId.text = t := by
  cases t with
  | none =>
    cases h
    rfl
  | some t =>
    cases hparse : EntityId.parse "prd_" t with
    | none =>
      rw [validProductId, hparse] at h
      cases h
    | some i' =>
      rw [validProductId, hparse] at h
      cases h
      exact congrArg some (EntityId.parse_eq_some.1 hparse)

private theorem validateIntake_eq_ok {operation productKey : Text} {productId : Option Text} {version : ℤ}
    {displayName : Text} {description changesetId : Option Text} {changeReason : Text}
    {attachments : (role : AttachmentRole) → IntakeAttachment role} {intake : ParsedIntake}
    (h : validateIntake env operation productKey productId version displayName description changesetId changeReason
      attachments = .ok intake) :
    intake.operation.text.toList = operation ∧ intake.productKey.text = productKey ∧
      intake.productId.map EntityId.text = productId ∧ version = intake.version.val ∧ intake.displayName = displayName ∧
      intake.description = description ∧ intake.changesetId = changesetId ∧ intake.changeReason = changeReason ∧
      intake.attachments = attachments := by
  unfold validateIntake at h
  obtain ⟨-, -, h⟩ := bind_eq_ok.1 h
  obtain ⟨op, hop, h⟩ := bind_eq_ok.1 h
  obtain ⟨key, hkey, h⟩ := bind_eq_ok.1 h
  obtain ⟨id, hid, h⟩ := bind_eq_ok.1 h
  have hoperation : op.text.toList = operation := by
    have hfound := List.find?_some (validField_eq_ok hop)
    exact of_decide_eq_true hfound
  have hproductKey : key.text = productKey := by
    have hparse := validField_eq_ok hkey
    unfold ProductKey.parse at hparse
    split at hparse
    · cases hparse
      rfl
    · cases hparse
  have hproductId := validProductId_eq_ok hid
  split at h
  · rename_i hversion
    split at h
    · cases h
    · split at h
      · cases h
      · split at h
        · cases h
        · cases h
          refine ⟨hoperation, hproductKey, hproductId, ?_, rfl, rfl, rfl, rfl, rfl⟩
          show version = (version.toNat : ℤ)
          omega
  · cases h

/-- An intake that is returned has the texts of the fields. -/
theorem shows_of_intakeOfFields {fields : Dict IssueField Text} {intake : ParsedIntake}
    (h : intakeOfFields env fields = .ok intake) : intake.Shows env fun field => (fields.lookup field).getD [] := by
  unfold intakeOfFields at h
  dsimp only at h
  split at h
  · cases h
  · obtain ⟨productHtml, hproductHtml, h⟩ := bind_eq_ok.1 h
    obtain ⟨semanticDocument, hsemanticDocument, h⟩ := bind_eq_ok.1 h
    obtain ⟨dictionaryExcel, hdictionaryExcel, h⟩ := bind_eq_ok.1 h
    obtain ⟨version, hversion, h⟩ := bind_eq_ok.1 h
    obtain ⟨hoperation, hproductKey, hproductId, hnumber, hdisplayName, hdescription, hchangesetId, hchangeReason,
      hattachments⟩ := validateIntake_eq_ok (mapError_eq_ok.1 h)
    refine ⟨hoperation, hproductKey, hproductId, ?_, hdisplayName, hdescription, hchangesetId, hchangeReason, ?_⟩
    · rw [← hnumber]
      exact mapError_eq_ok.1 hversion
    · intro role
      rw [hattachments]
      cases role with
      | productHtml => exact parseAttachment_eq_ok hproductHtml
      | semanticDocument => exact parseAttachment_eq_ok hsemanticDocument
      | dictionaryExcel => exact parseAttachment_eq_ok hdictionaryExcel

/-- The fields that the parser reads are the stripped values, and an intake that it returns has their texts. -/
def ReadsExactly (env : FormEnvironment) (values : IssueField → Text) : Prop :=
  ∃ fields, issueFields (renderForm values) = .ok fields ∧ (∀ f, fields.lookup f = some (Text.strip (values f))) ∧
    ∀ intake, parseIssueBody env (renderForm values) = .ok intake → intake.Shows env fun f => Text.strip (values f)

/-- The parser raises or reads the form exactly, if and only if it raises or the values are safe. -/
theorem parseIssueBody_exact_iff (env : FormEnvironment) (values : IssueField → Text) :
    ((∃ e, parseIssueBody env (renderForm values) = .error e) ∨ ReadsExactly env values) ↔
      (∃ e, parseIssueBody env (renderForm values) = .error e) ∨ FormSafe values := by
  cases hparse : parseIssueBody env (renderForm values) with
  | error e => exact ⟨fun _ => Or.inl ⟨e, rfl⟩, fun _ => Or.inl ⟨e, rfl⟩⟩
  | ok intake =>
    have hnone : ¬ ∃ e, (Except.ok intake : Except DownloadError ParsedIntake) = .error e := nofun
    obtain ⟨fields, hfields, hintake⟩ := bind_eq_ok.1 hparse
    have hread := mapError_eq_ok.1 hfields
    have hexact := issueFields_exact_iff hread
    rw [or_iff_right hnone, or_iff_right hnone]
    constructor
    · rintro ⟨fields', hread', hlookup, -⟩
      cases hread'.symm.trans hread
      exact hexact.1 hlookup
    · intro hsafe
      have hlookup := hexact.2 hsafe
      refine ⟨fields, hread, hlookup, fun intake' hintake' => ?_⟩
      cases hparse.symm.trans hintake'
      have hshows := shows_of_intakeOfFields hintake
      have htexts : (fun field => (fields.lookup field).getD []) = fun f => Text.strip (values f) := by
        funext f
        rw [hlookup f]
        rfl
      rwa [htexts] at hshows

end Intake

/-- An environment with `github.com` as the host of every URL. -/
private def githubEnvironment : FormEnvironment where
  urlsplit _ := .ok ⟨"https".toList, "github.com".toList, none, none, some "github.com".toList, .ok none,
    "/user-attachments/files/1/a".toList, [], []⟩
  geturl parsed := parsed.path
  urljoin _ url := .ok url
  lower := id
  controlOrFormat _ := false
  readInt _ := .ok 1
  readZip _ := .ok none
  buildRequest _ := .ok ∅
  send _ := .error .assertionError
  fault _ := none
  random := []
  tokenVariable := none
  pathName := id
  pathSuffix t := t.dropWhile fun c => c ≠ '.'

/-- A form whose description has a heading of its own. -/
private def formWithHeading : IssueField → Text
  | .operation => "create".toList
  | .productKey => "orders".toList
  | .version => "1".toList
  | .displayName => "Orders".toList
  | .description => "Text\n### Details\nmore".toList
  | .productHtml => "[a.html](https://github.com/user-attachments/files/1/a)".toList
  | .semanticDocument => "[a.pdf](https://github.com/user-attachments/files/1/a)".toList
  | .dictionaryExcel => "[a.xlsx](https://github.com/user-attachments/files/1/a)".toList
  | .changeReason => "New".toList
  | .productId | .changesetId => []

/-- A description is cut at a heading of its own, and the intake is returned. -/
theorem description_cut_at_heading :
    ¬ ∀ (env : FormEnvironment) (values : IssueField → Text),
      (∃ e, parseIssueBody env (renderForm values) = .error e) ∨ ReadsExactly env values := by
  intro h
  rcases h githubEnvironment formWithHeading with ⟨e, he⟩ | ⟨fields, hread, hexact, -⟩
  · have hok : (parseIssueBody githubEnvironment (renderForm formWithHeading)).toOption.isSome = true := by
      decide +kernel
    rw [he] at hok
    cases hok
  · have hfree := ((issueFields_exact_iff hread).1 hexact .description).1
    have hopens := hfree "Text\n".toList " Details\nmore".toList rfl
      fun c hc => (Option.some_inj.1 (hc : some '\n' = some c)).symm
    revert hopens
    decide

end ArdOssie
