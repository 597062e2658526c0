import ArdOssie.Library.Regex
import ArdOssie.Semantic.MarkdownTables

/-!
# Rendering to Markdown

The rendering of reconciled and of canonical documents, and the search for HTML in its result.  The rendering is
written for any escape of the texts: with the identity it is the plain layout of the document, and the escaped layout
has the characters of the plain one, some of them behind a backslash.
-/

namespace ArdOssie

/-! ### Chunks of text -/

/-- `chunk.rstrip("\n")` -/
def rstripNewlines : Text → Text
  | [] => []
  | c :: t => if c = '\n' ∧ rstripNewlines t = [] then [] else c :: rstripNewlines t

/-- The rendered chunks and the lines of the list that is not closed. -/
structure RenderState where
  chunks : List Text
  listLines : List Text

/-- `flush_list` -/
def RenderState.flush (s : RenderState) : RenderState :=
  if s.listLines = [] then s else ⟨s.chunks ++ [['\n'].intercalate s.listLines], []⟩

/-- A chunk after the lines of the list. -/
def RenderState.addChunk (s : RenderState) (chunk : Text) : RenderState := ⟨s.flush.chunks ++ [chunk], s.flush.listLines⟩

/-- A line of the list. -/
def RenderState.addLine (s : RenderState) (line : Text) : RenderState := ⟨s.chunks, s.listLines ++ [line]⟩

/-- The chunks with an empty line between two. -/
def joinChunks (chunks : List Text) : Text := "\n\n".toList.intercalate (chunks.map rstripNewlines)

/-- The start of a list item at a depth that counts from zero. -/
def itemStart (depth : ℕ) (kind : Option ListKind) : Text :=
  List.replicate (4 * depth) ' ' ++ (if kind = some .ordered then "1.".toList else "-".toList) ++ [' ']

/-- The start of a heading. -/
def headingStart (level : ℕ) : Text := List.replicate level '#' ++ [' ']

section Render

variable (escape : Text → Text)

/-- `_escape_inline` -/
def escapeInline (value : Text) : Text :=
  "\\\n".toList.intercalate ((textLines value).map fun line => escape (stripBlanks line))

/-! ### Canonical documents -/

/-- One pass of the loop of `render_canonical_markdown`. -/
def renderCanonicalBlock (s : RenderState) (block : CanonicalBlock) : PyResult RenderState :=
  match block.kind with
  | .listItem =>
    .ok (s.addLine (itemStart (block.listDepth.getD 1 - 1) block.listKind ++ escapeInline escape block.text))
  | .heading => .ok (s.addChunk (headingStart (block.headingLevel.getD 1) ++ escapeInline escape block.text))
  | .table => (renderCanonicalTable escape block).map s.addChunk
  | .paragraph => .ok (s.addChunk (escapeInline escape block.text))
  | .caption => .ok (s.addChunk (escapeInline escape block.text))

/-- The captions of the figures. -/
def renderCaptions (figures : List CanonicalFigure) : List Text :=
  (figures.filterMap fun figure => figure.caption.filter (· ≠ [])).map (escapeInline escape)

/-- The text of `render_canonical_markdown`, before the search for HTML. -/
def renderCanonicalText (document : CanonicalSemanticDocument) : PyResult Text := do
  let state ← (sortBy (·.order) document.blocks).foldlM (renderCanonicalBlock escape) ⟨[], []⟩
  let chunks := state.flush.chunks ++ renderCaptions escape document.figures
  return joinChunks (chunks.filter (· ≠ [])) ++ if chunks = [] then [] else ['\n']

/-! ### Reconciled documents -/

/-- `_resolve` -/
def resolveText (spans : Dict SpanId SourceSpan) (spanIds : List SpanId) : PyResult Text :=
  spanIds.foldlM (fun (t : Text) i =>
    match spans.lookup i with
    | some span => .ok (t ++ span.text)
    | none => .error (.valueError "SEMANTIC_SOURCE_TEXT_LOSS")) []

/-- `_render_list_item` -/
def renderListItem (spans : Dict SpanId SourceSpan) (block : ListItemBlock) : PyResult Text := do
  raiseIf (maxListDepth < block.depth) (.valueError "LIST_DEPTH_LIMIT_EXCEEDED")
  let text ← resolveText spans block.spanIds
  return itemStart block.depth (some block.listKind) ++ escapeInline escape text

/-- One pass of the loop of `render_semantic_markdown`. -/
def renderSemanticBlock (spans : Dict SpanId SourceSpan) (s : RenderState) : SemanticBlock → PyResult RenderState
  | .listItem block => (renderListItem escape spans block).map s.addLine
  | .heading block =>
    (resolveText spans block.spanIds).map fun text =>
      s.addChunk (headingStart block.level ++ escapeInline escape text)
  | .paragraph block => (resolveText spans block.spanIds).map fun text => s.addChunk (escapeInline escape text)
  | .table block => (renderTable escape block spans).map s.addChunk
  | .lossless block => (resolveText spans block.spanIds).map fun text => s.addChunk (escapeInline escape text)

/-- The text of `render_semantic_markdown`, before the search for HTML. -/
def renderSemanticText (document : ReconciledDocument) (spans : Dict SpanId SourceSpan) : PyResult Text := do
  let state ← (sortBy (·.order) document.blocks).foldlM (renderSemanticBlock escape spans) ⟨[], []⟩
  return joinChunks state.flush.chunks ++ ['\n']

end Render

/-! ### HTML -/

/-- `[A-Za-z]` -/
def isAsciiLetter (c : Char) : Bool := ('a' ≤ c && c ≤ 'z') || ('A' ≤ c && c ≤ 'Z')

/-- `[A-Za-z0-9]` -/
def isAsciiAlnum (c : Char) : Bool := isAsciiLetter c || ('0' ≤ c && c ≤ '9')

/-- `[^<>]` -/
def isNoAngle (c : Char) : Bool := c ≠ '<' && c ≠ '>'

/-- One given character. -/
def Regex.literal (c : Char) : Regex := .char fun x => x = c

/-- `(?:\s[^<>]*?)?\s*/?` -/
def htmlTagEnd : Regex :=
  .seq (.opt (.seq (.char Text.isSpace) (.star (.char isNoAngle))))
    (.seq (.star (.char Text.isSpace)) (.opt (.literal '/')))

/-- `/?[A-Za-z][A-Za-z0-9-]*(?:\s[^<>]*?)?\s*/?` -/
def htmlTag : Regex :=
  .seq (.opt (.literal '/')) (.seq (.char isAsciiLetter)
    (.seq (.star (.char fun c => isAsciiAlnum c || c = '-')) htmlTagEnd))

/-- `!--.*?--` -/
def htmlComment : Regex :=
  .seq (.literal '!') (.seq (.literal '-') (.seq (.literal '-')
    (.seq (.star (.char fun _ => true)) (.seq (.literal '-') (.literal '-')))))

/-- `![A-Z][^<>]*` -/
def htmlDeclaration : Regex :=
  .seq (.literal '!') (.seq (.char fun c => 'A' ≤ c && c ≤ 'Z') (.star (.char isNoAngle)))

/-- `\?.*?\?` -/
def htmlInstruction : Regex := .seq (.literal '?') (.seq (.star (.char fun _ => true)) (.literal '?'))

/-- `_RAW_HTML`; whether a search succeeds does not depend on which repetition is preferred. -/
def rawHtml : Regex :=
  .seq (.literal '<') (.seq (.alt htmlTag (.alt htmlComment (.alt htmlDeclaration htmlInstruction))) (.literal '>'))

/-- `has_raw_html` -/
def hasRawHtml (value : Text) : Bool := rawHtml.occursIn value

section Entities

variable (platform : Platform)

/-- `_HTML_ENTITY` after the ampersand. -/
def htmlEntityName : Regex :=
  let isHex := fun c : Char => ('0' ≤ c && c ≤ '9') || ('A' ≤ c && c ≤ 'F') || ('a' ≤ c && c ≤ 'f')
  .seq (.alt (.seq (.literal '#') (.plus (.char platform.isDecimal)))
    (.alt (.seq (.literal '#') (.seq (.literal 'x') (.plus (.char isHex))))
      (.seq (.char isAsciiLetter) (.plus (.char isAsciiAlnum))))) (.literal ';')

/-- `_HTML_ENTITY` -/
def htmlEntity : Regex :=
  .seq (.notBehind fun c => c = '\\') (.seq (.literal '&') (htmlEntityName platform))

/-- The checks of a rendered text. -/
def checkMarkdown (rendered : Text) : PyResult Text := do
  raiseIf (hasRawHtml rendered) (.valueError "SEMANTIC_RAW_HTML_OUTPUT")
  raiseIf ((htmlEntity platform).occursIn rendered) (.valueError "SEMANTIC_HTML_ENTITY_OUTPUT")
  return rendered

/-- `render_canonical_markdown` -/
def renderCanonicalMarkdown (document : CanonicalSemanticDocument) : PyResult Text :=
  renderCanonicalText escapeMarkdown document >>= checkMarkdown platform

/-- `render_semantic_markdown` -/
def renderSemanticMarkdown (document : ReconciledDocument) (spans : Dict SpanId SourceSpan) : PyResult Text :=
  renderSemanticText escapeMarkdown document spans >>= checkMarkdown platform

end Entities

/-- The start of a tag with a space after its name, up to the next angle bracket, which closes it. -/
def spacedTag : Regex :=
  .seq (.literal '<') (.seq (.char isAsciiLetter) (.seq (.star (.char isAsciiAlnum))
    (.seq (.char Text.isSpace) (.seq (.star (.char isNoAngle)) (.literal '>')))))

end ArdOssie
