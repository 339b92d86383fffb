import TutaBridge.Mail.MimeTrees

/-!
# The body of a message in several parts

Of the texts of a message one is its body: the first in HTML, or the first plain one where
there is no HTML. The loop takes what a part in several parts gives back for HTML unless it
is empty, so such a part without any text shows its lines, and one whose HTML is empty shows
nothing. Which trees are read well all the same is said exactly.
-/

namespace TutaBridge.Mail

open TutaBridge.Std TutaBridge.Std.Text

/-! ## What is to be read -/

/-- The body is the first text in HTML, or the first plain text. -/
def ReadsBody (parts : Parts) (read : BodyRead) : Prop :=
  match parts.firstHtml, parts.firstPlain with
  | some html, _ => read.bodyHtml = html ∧ read.bodyText = none
  | none, some plain =>
    read.bodyHtml = "<pre>".toList ++ htmlEscape plain ++ "</pre>".toList ∧ read.bodyText = some plain
  | none, none => True

namespace Parts

/-- The parts in several parts that end before the first text in HTML, in the order of their
ends. -/
def ended : Parts → List (Multipart × Parts)
  | nil => []
  | leaf part rest => if part.html? = none then rest.ended else []
  | multi head inner rest =>
    inner.ended ++ if inner.firstHtml = none then (head, inner) :: rest.ended else []

/-- The first of them without a text. -/
def stray (parts : Parts) : Option (Multipart × Parts) :=
  parts.ended.find? fun part => part.2.firstPlain = none

end Parts

/-- The lines of a part in several parts behind its headers, as one text. -/
def rawSection (part : Multipart × Parts) : Text := feedLines (part.2.lines part.1.boundary)

/-- What parts come to: nothing, plain text, HTML that is empty, or HTML that is not. -/
inductive Shown where
  | nothing
  | text
  | blank
  | html
deriving DecidableEq

/-- What a text and what follows it come to. -/
def Shown.behindText : Shown → Shown
  | nothing => text
  | later => later

namespace Parts

/-- What the parts come to. An empty text in HTML hides the part in several parts it is in. -/
def shown : Parts → Shown
  | nil => .nothing
  | leaf (.plain _) rest => rest.shown.behindText
  | leaf (.html content) _ => if content = [] then .blank else .html
  | leaf (.file _ _ _) rest => rest.shown
  | multi _ inner rest =>
    match inner.shown with
    | .nothing | .html => .html
    | .text => rest.shown.behindText
    | .blank => rest.shown

/-- Every part in several parts that ends before the first text in HTML has a text, and the text
in HTML is not empty, or the parts come to empty HTML all the same. Where there is no HTML, every
part in several parts has a text. Only by chance are the lines of a part without a text the very
text that was meant. -/
def Shows (parts : Parts) : Prop :=
  match parts.firstHtml, parts.firstPlain with
  | some html, _ =>
    match parts.stray with
    | none => html = [] → parts.shown = .blank
    | some part => html = rawSection part
  | none, some _ => parts.stray = none
  | none, none => True

end Parts

/-! ## One part -/

section Nested

variable {read : PartsRead} {found : PartsRead} {body : Text}

theorem nested_html {html : Text} (isHtml : found.htmlPart = some html) (notEmpty : html ≠ [])
    (noHtml : read.htmlPart = none) : (read.nested (found.finish body)).htmlPart = some html := by
  simp [PartsRead.nested, PartsRead.finish, isHtml, notEmpty, noHtml]

theorem nested_blank (isBlank : found.htmlPart = some []) (noHtml : read.htmlPart = none) :
    (read.nested (found.finish body)).htmlPart = none ∧ (read.nested (found.finish body)).textPart = read.textPart := by
  simp [PartsRead.nested, PartsRead.finish, isBlank, noHtml]

theorem nested_text {text : Text} (notHtml : found.htmlPart = none)
    (isText : found.textPart = some text) (noHtml : read.htmlPart = none) :
    (read.nested (found.finish body)).htmlPart = none ∧
      (read.nested (found.finish body)).textPart = read.textPart.or (some text) := by
  simp [PartsRead.nested, PartsRead.finish, notHtml, isText, noHtml]

theorem nested_nothing (notHtml : found.htmlPart = none) (noText : found.textPart = none)
    (notEmpty : body ≠ []) (noHtml : read.htmlPart = none) :
    (read.nested (found.finish body)).htmlPart = some body := by
  simp [PartsRead.nested, PartsRead.finish, notHtml, noText, notEmpty, noHtml]

theorem nested_keeps {html : Text} (isHtml : read.htmlPart = some html) (body : BodyRead) :
    (read.nested body).htmlPart = some html := by
  simp [PartsRead.nested, isHtml]

end Nested

theorem leaf_attachments (read : PartsRead) (part : Leaf) :
    (read.leaf part).attachments = read.attachments ++ part.attachment?.toList := by
  cases part with
  | plain content =>
    simp only [PartsRead.leaf]
    split <;> simp [Leaf.attachment?]
  | html content =>
    simp only [PartsRead.leaf]
    split <;> simp [Leaf.attachment?]
  | file name mediaType data => rfl

theorem leaf_plain {read : PartsRead} (notRead : read.htmlPart = none) (content : Text) :
    (read.leaf (.plain content)).htmlPart = none ∧
      (read.leaf (.plain content)).textPart = read.textPart.or (some content) := by
  cases isText : read.textPart <;> simp [PartsRead.leaf, notRead, isText]

theorem leaf_html {read : PartsRead} (notRead : read.htmlPart = none) (content : Text) :
    (read.leaf (.html content)).htmlPart = some content := by
  simp [PartsRead.leaf, notRead]

theorem rawSection_ne_nil (part : Multipart × Parts) : rawSection part ≠ [] := by
  have hasLines : part.2.lines part.1.boundary ≠ [] := by
    cases part.2 <;> simp [Parts.lines]
  obtain ⟨line, rest, split⟩ := List.exists_cons_of_ne_nil hasLines
  rw [rawSection, split, feedLines_cons]
  simp

namespace Parts

theorem firstHtml_leaf (part : Leaf) (rest : Parts) : (leaf part rest).firstHtml = part.html?.or rest.firstHtml := by
  rw [firstHtml, leaves, List.findSome?_cons]
  cases part.html? <;> rfl

theorem firstPlain_leaf (part : Leaf) (rest : Parts) :
    (leaf part rest).firstPlain = part.plain?.or rest.firstPlain := by
  rw [firstPlain, leaves, List.findSome?_cons]
  cases part.plain? <;> rfl

theorem firstHtml_multi (head : Multipart) (inner rest : Parts) :
    (multi head inner rest).firstHtml = inner.firstHtml.or rest.firstHtml :=
  List.findSome?_append

theorem firstPlain_multi (head : Multipart) (inner rest : Parts) :
    (multi head inner rest).firstPlain = inner.firstPlain.or rest.firstPlain :=
  List.findSome?_append

theorem files_leaf (part : Leaf) (rest : Parts) : (leaf part rest).files = part.attachment?.toList ++ rest.files := by
  rw [files, leaves, List.filterMap_cons]
  cases part.attachment? <;> rfl

theorem files_multi (head : Multipart) (inner rest : Parts) :
    (multi head inner rest).files = inner.files ++ rest.files :=
  List.filterMap_append

theorem stray_leaf (part : Leaf) (rest : Parts) :
    (leaf part rest).stray = if part.html? = none then rest.stray else none := by
  rw [stray, ended]
  split <;> rfl

theorem stray_multi (head : Multipart) (inner rest : Parts) : (multi head inner rest).stray = inner.stray.or
      (if inner.firstHtml = none then
        if inner.firstPlain = none then some (head, inner) else rest.stray
      else none) := by
  rw [stray, ended, List.find?_append, ← stray]
  split
  · rw [List.find?_cons]
    split <;> simp_all [stray]
  · rfl

/-! ## What the loop makes of the parts -/

/-- Every file is read, in the order of the document. -/
theorem read_attachments (parts : Parts) (read : PartsRead) :
    (parts.read read).attachments = read.attachments ++ parts.files := by
  induction parts generalizing read with
  | nil => exact (List.append_nil _).symm
  | leaf part rest ih =>
    rw [Parts.read, ih, leaf_attachments, files_leaf, List.append_assoc]
  | multi head inner rest innerHypothesis restHypothesis =>
    have innerFiles := innerHypothesis ⟨none, none, []⟩
    rw [Parts.read, restHypothesis, PartsRead.nested, finish_attachments, innerFiles, files_multi,
      List.nil_append, List.append_assoc]

/-- The first HTML is kept. -/
theorem read_keeps {read : PartsRead} {html : Text} (isHtml : read.htmlPart = some html)
    (parts : Parts) : (parts.read read).htmlPart = some html := by
  induction parts generalizing read with
  | nil => exact isHtml
  | leaf part rest ih =>
    refine ih ?_
    cases part <;> simp [PartsRead.leaf, isHtml]
  | multi head inner rest _ restHypothesis => exact restHypothesis (nested_keeps isHtml _)

/-- Where every part in several parts has a text and none is in HTML, the first text is read. -/
theorem read_plain {parts : Parts} (noStray : parts.stray = none) (noHtml : parts.firstHtml = none)
    {read : PartsRead} (notRead : read.htmlPart = none) : (parts.read read).htmlPart = none ∧
      (parts.read read).textPart = read.textPart.or parts.firstPlain := by
  induction parts generalizing read with
  | nil => exact ⟨notRead, (Option.or_none).symm⟩
  | leaf part rest ih =>
    rw [firstHtml_leaf, Option.or_eq_none_iff] at noHtml
    rw [stray_leaf, if_pos noHtml.1] at noStray
    rw [Parts.read, firstPlain_leaf]
    cases part with
    | plain content =>
      have step := leaf_plain notRead content
      obtain ⟨html, text⟩ := ih noStray noHtml.2 step.1
      exact ⟨html, by rw [text, step.2, Option.or_assoc, Leaf.plain?]⟩
    | html content => exact absurd noHtml.1 (Option.some_ne_none content)
    | file name mediaType data => exact ih noStray noHtml.2 notRead
  | multi head inner rest innerHypothesis restHypothesis =>
    rw [firstHtml_multi, Option.or_eq_none_iff] at noHtml
    rw [stray_multi, if_pos noHtml.1, Option.or_eq_none_iff] at noStray
    obtain ⟨innerStray, noStray⟩ := noStray
    obtain ⟨innerHtml, innerText⟩ := @innerHypothesis innerStray noHtml.1 ⟨none, none, []⟩ rfl
    rw [Parts.read, firstPlain_multi]
    cases isText : inner.firstPlain with
    | none =>
      rw [if_pos isText] at noStray
      cases noStray
    | some text =>
      rw [isText] at noStray innerText
      rw [if_neg (Option.some_ne_none text)] at noStray
      have step := @nested_text read _ (feedLines (inner.lines head.boundary)) text innerHtml
        innerText notRead
      obtain ⟨html, later⟩ := restHypothesis noStray noHtml.2 step.1
      exact ⟨html, by rw [later, step.2, Option.or_assoc]⟩

/-- Where every part in several parts before it has a text, the first text in HTML is read. -/
theorem read_html {parts : Parts} (noStray : parts.stray = none) {html : Text}
    (isFirst : parts.firstHtml = some html) (notEmpty : html ≠ []) {read : PartsRead}
    (notRead : read.htmlPart = none) : (parts.read read).htmlPart = some html := by
  induction parts generalizing read with
  | nil => cases isFirst
  | leaf part rest ih =>
    rw [firstHtml_leaf] at isFirst
    rw [stray_leaf] at noStray
    cases part with
    | plain content => exact ih noStray isFirst (leaf_plain notRead content).1
    | html content =>
      cases isFirst
      exact read_keeps (leaf_html notRead html) rest
    | file name mediaType data => exact ih noStray isFirst notRead
  | multi head inner rest innerHypothesis restHypothesis =>
    rw [firstHtml_multi] at isFirst
    rw [stray_multi, Option.or_eq_none_iff] at noStray
    obtain ⟨innerStray, noStray⟩ := noStray
    cases isHtml : inner.firstHtml with
    | some first =>
      rw [isHtml, Option.some_or] at isFirst
      cases isFirst
      exact read_keeps (nested_html (innerHypothesis innerStray isHtml rfl) notEmpty notRead) rest
    | none =>
      rw [isHtml, Option.none_or] at isFirst
      rw [if_pos isHtml] at noStray
      obtain ⟨innerHtml, innerText⟩ := @read_plain inner innerStray isHtml ⟨none, none, []⟩ rfl
      cases isText : inner.firstPlain with
      | none =>
        rw [if_pos isText] at noStray
        cases noStray
      | some text =>
        rw [if_neg (isText ▸ Option.some_ne_none text)] at noStray
        rw [isText] at innerText
        exact restHypothesis noStray isFirst (nested_text innerHtml innerText notRead).1

/-- A part in several parts without a text is read as HTML. -/
theorem read_stray {parts : Parts} {part : Multipart × Parts} (isStray : parts.stray = some part)
    {read : PartsRead} (notRead : read.htmlPart = none) : (parts.read read).htmlPart = some (rawSection part) := by
  induction parts generalizing read with
  | nil => cases isStray
  | leaf leaf rest ih =>
    rw [stray_leaf] at isStray
    cases leaf with
    | plain content => exact ih isStray (leaf_plain notRead content).1
    | html content => cases isStray
    | file name mediaType data => exact ih isStray notRead
  | multi head inner rest innerHypothesis restHypothesis =>
    rw [stray_multi] at isStray
    cases innerStray : inner.stray with
    | some first =>
      rw [innerStray, Option.some_or] at isStray
      cases isStray
      exact read_keeps (nested_html (innerHypothesis innerStray rfl) (rawSection_ne_nil _) notRead) rest
    | none =>
      rw [innerStray, Option.none_or] at isStray
      split at isStray
      next noHtml =>
        obtain ⟨innerHtml, innerText⟩ := @read_plain inner innerStray noHtml ⟨none, none, []⟩ rfl
        cases isText : inner.firstPlain with
        | none =>
          rw [if_pos isText] at isStray
          rw [isText] at innerText
          cases isStray
          exact read_keeps (nested_nothing innerHtml innerText (rawSection_ne_nil (head, inner)) notRead) rest
        | some text =>
          rw [if_neg (isText ▸ Option.some_ne_none text)] at isStray
          rw [isText] at innerText
          exact restHypothesis isStray (nested_text innerHtml innerText notRead).1
      next => cases isStray

end Parts

/-! ## Texts that are empty -/

/-- The loop has read what the parts come to. -/
def Shown.Read (before after : PartsRead) : Shown → Prop
  | nothing => after.htmlPart = none ∧ after.textPart = before.textPart
  | text => after.htmlPart = none ∧ ∃ content, after.textPart = before.textPart.or (some content)
  | blank => after.htmlPart = some []
  | html => ∃ content, content ≠ [] ∧ after.htmlPart = some content

/-- A text goes before what follows it. -/
theorem Shown.Read.behindText {shown : Shown} {before between after : PartsRead} {content : Text}
    (isText : between.textPart = before.textPart.or (some content))
    (read : shown.Read between after) : shown.behindText.Read before after := by
  cases shown with
  | nothing => exact ⟨read.1, content, read.2.trans isText⟩
  | text =>
    obtain ⟨notHtml, later, isLater⟩ := read
    refine ⟨notHtml, content, ?_⟩
    rw [isLater, isText, Option.or_assoc, Option.some_or]
  | blank => exact read
  | html => exact read

/-- What is read of parts is what they come to. -/
theorem Parts.read_shown (parts : Parts) {read : PartsRead} (notRead : read.htmlPart = none) :
    parts.shown.Read read (parts.read read) := by
  induction parts generalizing read with
  | nil => exact ⟨notRead, rfl⟩
  | leaf part rest ih =>
    cases part with
    | plain content =>
      have step := leaf_plain notRead content
      exact (ih step.1).behindText step.2
    | html content =>
      have kept := read_keeps (leaf_html notRead content) rest
      rw [Parts.shown]
      split
      next isEmpty => exact isEmpty ▸ kept
      next notEmpty => exact ⟨content, notEmpty, kept⟩
    | file name mediaType data => exact ih notRead
  | multi head inner rest innerHypothesis restHypothesis =>
    have innerRead := @innerHypothesis ⟨none, none, []⟩ rfl
    rw [Parts.read, Parts.shown]
    cases isShown : inner.shown with
    | nothing =>
      rw [isShown] at innerRead
      refine ⟨rawSection (head, inner), rawSection_ne_nil _, read_keeps ?_ rest⟩
      exact nested_nothing innerRead.1 innerRead.2 (rawSection_ne_nil (head, inner)) notRead
    | html =>
      rw [isShown] at innerRead
      obtain ⟨content, notEmpty, isHtml⟩ := innerRead
      exact ⟨content, notEmpty, read_keeps (nested_html isHtml notEmpty notRead) rest⟩
    | text =>
      rw [isShown] at innerRead
      obtain ⟨notHtml, content, isText⟩ := innerRead
      have step := @nested_text read _ (feedLines (inner.lines head.boundary)) content notHtml isText notRead
      exact (restHypothesis step.1).behindText step.2
    | blank =>
      rw [isShown] at innerRead
      have step := @nested_blank read _ (feedLines (inner.lines head.boundary)) innerRead notRead
      have later := restHypothesis step.1
      cases restShown : rest.shown with
      | nothing =>
        rw [restShown] at later
        exact ⟨later.1, later.2.trans step.2⟩
      | text =>
        rw [restShown] at later
        obtain ⟨notHtml, content, isText⟩ := later
        exact ⟨notHtml, content, by rw [isText, step.2]⟩
      | blank =>
        rw [restShown] at later
        exact later
      | html =>
        rw [restShown] at later
        exact later

/-- Empty HTML is read exactly where the parts come to it. -/
theorem Parts.read_blank_iff (parts : Parts) :
    (parts.read ⟨none, none, []⟩).htmlPart = some [] ↔ parts.shown = .blank := by
  have read := @Parts.read_shown parts ⟨none, none, []⟩ rfl
  cases isShown : parts.shown with
  | nothing =>
    rw [isShown] at read
    simp [read.1]
  | text =>
    rw [isShown] at read
    simp [read.1]
  | blank =>
    rw [isShown] at read
    exact ⟨fun _ => rfl, fun _ => read⟩
  | html =>
    rw [isShown] at read
    obtain ⟨content, notEmpty, isHtml⟩ := read
    simp [isHtml, notEmpty]

/-! ## The message -/

section Finish

variable {read : PartsRead} {body : Text}

theorem finish_html {html : Text} (isHtml : read.htmlPart = some html) :
    read.finish body = ⟨html, read.attachments, none⟩ := by
  simp [PartsRead.finish, isHtml]

theorem finish_text {text : Text} (notHtml : read.htmlPart = none) (isText : read.textPart = some text) :
    read.finish body =
      ⟨"<pre>".toList ++ htmlEscape text ++ "</pre>".toList, read.attachments, some text⟩ := by
  have isPlain : (contains "text/plain".toList "text/plain".toList &&
      !contains "text/plain".toList "text/html".toList) = true := by decide
  simp only [PartsRead.finish, notHtml, isText, wrapPlainAsHtml, isPlain, if_true]

/-- Nothing is shown where empty HTML was read. -/
theorem finish_blank_iff (notEmpty : body ≠ []) :
    ((read.finish body).bodyHtml = [] ∧ (read.finish body).bodyText = none) ↔ read.htmlPart = some [] := by
  cases isHtml : read.htmlPart with
  | some first => simp [finish_html isHtml]
  | none =>
    cases isText : read.textPart with
    | some text => simp [finish_text isHtml isText]
    | none => simp [PartsRead.finish, isHtml, isText, notEmpty]

end Finish

theorem MimeMessage.body_ne_nil (message : MimeMessage) : message.body ≠ [] := by
  have hasLines : message.parts.lines message.head.boundary ≠ [] := by
    cases message.parts <;> simp [Parts.lines]
  obtain ⟨line, rest, split⟩ := List.exists_cons_of_ne_nil hasLines
  rw [MimeMessage.body, split, List.flatMap_cons]
  simp [newline]

/-- The body is the one that is meant exactly where the tree shows it. -/
theorem readsBody_iff (parts : Parts) {body : Text} (notEmpty : body ≠ []) :
    ReadsBody parts ((parts.read ⟨none, none, []⟩).finish body) ↔ parts.Shows := by
  unfold ReadsBody Parts.Shows
  cases isStray : parts.stray with
  | some part =>
    have isHtml := @Parts.read_stray parts part isStray ⟨none, none, []⟩ rfl
    rw [finish_html isHtml]
    cases parts.firstHtml with
    | some html => simp [eq_comm]
    | none => cases parts.firstPlain <;> simp
  | none =>
    cases isFirst : parts.firstHtml with
    | some html =>
      by_cases isEmpty : html = []
      · subst isEmpty
        simp [finish_blank_iff notEmpty, parts.read_blank_iff]
      · have isHtml := @Parts.read_html parts isStray html isFirst isEmpty ⟨none, none, []⟩ rfl
        simp [finish_html isHtml, isEmpty]
    | none =>
      obtain ⟨notHtml, isText⟩ := @Parts.read_plain parts isStray isFirst ⟨none, none, []⟩ rfl
      cases isPlain : parts.firstPlain with
      | some plain =>
        rw [isPlain] at isText
        simp [finish_text notHtml isText]
      | none => simp

/-- Every file of a message is read, in its order and with its bytes. The body is the first text
in HTML, or else the first plain text, exactly for the trees that show it. -/
theorem parseBody_mimeMessage (casing : Casing) (message : MimeMessage) :
    let read := parseBody casing message.raw
    read.attachments = message.parts.files ∧ (ReadsBody message.parts read ↔ message.parts.Shows) := by
  intro read
  have isRead : read = (message.parts.read ⟨none, none, []⟩).finish message.body :=
    parseBody_raw casing message
  have finished := finish_attachments (message.parts.read ⟨none, none, []⟩) message.body
  rw [isRead]
  refine ⟨?_, readsBody_iff message.parts message.body_ne_nil⟩
  rw [finished, Parts.read_attachments, List.nil_append]

/-! ## A mail without a text -/

theorem isFieldName_mixed : isFieldName "mixed" = true := by decide

theorem isFieldName_alternative : isFieldName "alternative" = true := by decide

theorem outer_ne_nil : "outer".toList ≠ [] := by decide

theorem inner_ne_nil : "inner".toList ≠ [] := by decide

theorem quotable_outer : "outer".toList.all isQuotable = true := by decide

theorem quotable_inner : "inner".toList.all isQuotable = true := by decide

def mixed : Multipart where
  subtype := "mixed"
  boundary := "outer".toList
  isSubtype := isFieldName_mixed
  hasBoundary := outer_ne_nil
  quotable := quotable_outer

def alternative : Multipart where
  subtype := "alternative"
  boundary := "inner".toList
  isSubtype := isFieldName_alternative
  hasBoundary := inner_ne_nil
  quotable := quotable_inner

def pdf : MediaType where
  text := "application/pdf".toList
  notEmpty := by decide
  isMedia := by decide
  notMultipart := by decide

/-- A file that was sent without a word, as a client writes it: the text is empty, plain and
in HTML. -/
def silentMessage : MimeMessage where
  fields := [("From", "eve@example.org".toList), ("MIME-Version", "1.0".toList)]
  head := mixed
  parts := .multi alternative (.leaf (.plain []) (.leaf (.html []) .nil))
    (.leaf (.file "scan.pdf".toList pdf [37, 80, 68, 70]) .nil)
  solid := by
    intro field mem
    simp only [List.mem_cons, List.not_mem_nil, or_false] at mem
    rcases mem with rfl | rfl
    · exact ⟨(by decide : isFieldName "From" = true), by decide⟩
    · exact ⟨(by decide : isFieldName "MIME-Version" = true), by decide⟩
  untyped := by
    intro field mem
    simp only [List.mem_cons, List.not_mem_nil, or_false] at mem
    rcases mem with rfl | rfl <;> decide
  apart := by
    have apart : Apart "outer".toList "inner".toList := by
      simp [Apart]
    exact List.pairwise_cons.mpr ⟨List.forall_mem_singleton.mpr apart, List.pairwise_singleton _ _⟩

/-- The lines of the message are shown in the place of its text. -/
theorem silent_message_shows_lines : ¬ ReadsBody silentMessage.parts (parseBody .ascii silentMessage.raw) := by
  rw [parseBody_raw, readsBody_iff silentMessage.parts silentMessage.body_ne_nil]
  intro shows
  have reached : ([] : Text) = [] → silentMessage.parts.shown = .blank := shows
  exact absurd (reached rfl) (by decide)

/-- A part in several parts that holds only a file hides the text behind it. -/
example : ¬ (Parts.multi alternative (.leaf (.file "scan.pdf".toList pdf []) .nil)
    (.leaf (.html "<p>Hi</p>".toList) .nil)).Shows := by
  intro shows
  have same : "<p>Hi</p>".toList =
    rawSection (alternative, .leaf (.file "scan.pdf".toList pdf []) .nil) := shows
  exact absurd same (by decide)

end TutaBridge.Mail
