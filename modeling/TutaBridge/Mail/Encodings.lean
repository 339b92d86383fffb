import TutaBridge.Mail.Mime

/-!
# How a body was encoded

A body in quoted printable is read back as the text that was encoded, whichever of its bytes
are escaped and wherever its lines are broken. A body that was stored as one `<pre>` block is
read back as the text in it.
-/

namespace TutaBridge.Mail

open TutaBridge.Std TutaBridge.Std.Text

/-! ## Quoted printable -/

/-- What an encoder writes next: a character as it is, a byte as an escape, or a line break
that is no part of the text. -/
inductive QuotedPiece where
  | literal (char : Char) (noEscape : char ≠ '=')
  | escaped (byte : UInt8) (upperFirst upperSecond : Bool)
  | softBreak (crlf : Bool)

namespace QuotedPiece

def written : QuotedPiece → Text
  | literal char _ => [char]
  | escaped byte upperFirst upperSecond => escapedByte byte upperFirst upperSecond
  | softBreak crlf => if crlf then ['=', '\r', '\n'] else ['=', '\n']

/-- The bytes that are meant. -/
def bytes : QuotedPiece → List UInt8
  | literal char _ => Utf8.encode [char]
  | escaped byte _ _ => [byte]
  | softBreak _ => []

end QuotedPiece

theorem decodeQuotedPrintableBytes_cons {byte : UInt8} (noEscape : byte ≠ 61) (rest : List UInt8) :
    decodeQuotedPrintableBytes (byte :: rest) = byte :: decodeQuotedPrintableBytes rest := by
  cases rest with
  | nil => rfl
  | cons first rest => cases rest <;> simp [decodeQuotedPrintableBytes, noEscape]

theorem decodeQuotedPrintableBytes_append {bytes : List UInt8} (noEscape : 61 ∉ bytes) (rest : List UInt8) :
    decodeQuotedPrintableBytes (bytes ++ rest) = bytes ++ decodeQuotedPrintableBytes rest := by
  induction bytes with
  | nil => rfl
  | cons byte bytes ih =>
    obtain ⟨different, absent⟩ := not_or.mp (mt List.mem_cons.mpr noEscape)
    rw [List.cons_append, decodeQuotedPrintableBytes_cons (Ne.symm different), ih absent, List.cons_append]

/-- An escape is looked for behind the two line breaks, which no digit begins. -/
theorem decodeQuotedPrintableBytes_escape {first second byte : UInt8}
    (reads : hexByte? first second = some byte) (noFeed : first ≠ 10) (noReturn : first ≠ 13) (rest : List UInt8) :
    decodeQuotedPrintableBytes (61 :: first :: second :: rest) = byte :: decodeQuotedPrintableBytes rest := by
  simp [decodeQuotedPrintableBytes, reads, noFeed, noReturn]

theorem decodeQuotedPrintableBytes_softBreak (crlf : Bool) (rest : List UInt8) :
    decodeQuotedPrintableBytes (Utf8.encode (QuotedPiece.softBreak crlf).written ++ rest) =
      decodeQuotedPrintableBytes rest := by
  cases crlf with
  | true =>
    have bytes : Utf8.encode (QuotedPiece.softBreak true).written = [61, 13, 10] := by decide
    rw [bytes]
    simp [decodeQuotedPrintableBytes]
  | false =>
    have bytes : Utf8.encode (QuotedPiece.softBreak false).written = [61, 10] := by decide
    rw [bytes]
    cases rest <;> simp [decodeQuotedPrintableBytes]

/-- One piece is read as its bytes, whatever follows it. -/
theorem decodeQuotedPrintableBytes_piece (piece : QuotedPiece) (rest : List UInt8) :
    decodeQuotedPrintableBytes (Utf8.encode piece.written ++ rest) =
      piece.bytes ++ decodeQuotedPrintableBytes rest := by
  cases piece with
  | literal char noEscape =>
    refine decodeQuotedPrintableBytes_append (fun mem => ?_) rest
    have isEscape := @Utf8.mem_of_mem_encode [char] '=' (by decide) mem
    exact noEscape (List.mem_singleton.mp isEscape).symm
  | escaped byte upperFirst upperSecond =>
    obtain ⟨first, second, bytes, reads, noFeed, noReturn⟩ :=
      encode_escapedByte byte upperFirst upperSecond
    rw [QuotedPiece.written, bytes]
    exact decodeQuotedPrintableBytes_escape reads noFeed noReturn rest
  | softBreak crlf => exact decodeQuotedPrintableBytes_softBreak crlf rest

theorem decodeQuotedPrintableBytes_pieces (pieces : List QuotedPiece) :
    decodeQuotedPrintableBytes (Utf8.encode (pieces.flatMap QuotedPiece.written)) =
      pieces.flatMap QuotedPiece.bytes := by
  induction pieces with
  | nil => rfl
  | cons piece rest ih =>
    rw [List.flatMap_cons, List.flatMap_cons, Utf8.encode_append, decodeQuotedPrintableBytes_piece, ih]

/-- An encoded text is read back. -/
theorem decodeQuotedPrintable_pieces {text : Text} {pieces : List QuotedPiece}
    (encodes : pieces.flatMap QuotedPiece.bytes = Utf8.encode text) :
    decodeQuotedPrintable (pieces.flatMap QuotedPiece.written) = text := by
  rw [decodeQuotedPrintable, decodeQuotedPrintableBytes_pieces, encodes, Utf8.decodeLossy_encode]

/-- A character in two bytes, with a line break between them and an escape at the end. -/
theorem decodeQuotedPrintable_split_character :
    decodeQuotedPrintable "caf=C3=\r\n=a9".toList = "café".toList := by
  have encodes : ([.literal 'c' (by decide), .literal 'a' (by decide), .literal 'f' (by decide),
      .escaped 0xC3 true true, .softBreak true, .escaped 0xA9 false false] :
        List QuotedPiece).flatMap QuotedPiece.bytes = Utf8.encode "café".toList := by decide
  exact decodeQuotedPrintable_pieces encodes

/-! ## One block -/

/-- What `html_escape` writes has no tag in it. -/
theorem not_mem_encoded (text : Text) : '<' ∉ encoded '&' htmlEntities text := by
  intro mem
  obtain ⟨char, -, inEntity⟩ := List.mem_flatMap.mp mem
  by_cases less : char = '<'
  · subst less
    exact absurd inEntity (by decide)
  · exact not_mem_entity less (by decide) inEntity

/-- The content of one `<pre>` block without tags. -/
theorem flatPre_block {inner : Text} (noTag : '<' ∉ inner) :
    flatPre ("<pre>".toList ++ inner ++ "</pre>".toList) = some inner := by
  have lowerInner : '<' ∉ inner.map Char.toLower := by
    intro mem
    obtain ⟨char, inInner, isLess⟩ := List.mem_map.mp mem
    exact noTag (eq_of_toLower (by decide) (by decide) isLess ▸ inInner)
  have lower : ("<pre>".toList ++ inner ++ "</pre>".toList).map Char.toLower =
      "<pre>".toList ++ (inner.map Char.toLower ++ "</pre>".toList) := by
    rw [List.map_append, List.map_append, List.append_assoc]
    rfl
  have width : ∀ text : Text, ("<pre>".toList ++ (text ++ "</pre>".toList)).length - 11 = text.length := by
    intro text
    simp only [List.length_append]
    have openingWidth : "<pre>".toList.length = 5 := rfl
    have closingWidth : "</pre>".toList.length = 6 := rfl
    omega
  have behind : ∀ text : Text, ("<pre>".toList ++ text).drop 5 = text := fun _ => rfl
  have isBlock : ("<pre>".toList.isPrefixOf ("<pre>".toList ++ (inner.map Char.toLower ++ "</pre>".toList)) &&
      "</pre>".toList.isSuffixOf (inner.map Char.toLower ++ "</pre>".toList)) = true := by
    rw [Bool.and_eq_true, List.isPrefixOf_iff_prefix, List.isSuffixOf_iff_suffix]
    exact ⟨List.prefix_append _ _, List.suffix_append _ _⟩
  unfold flatPre
  dsimp only
  rw [lower, width, behind, isBlock, if_pos rfl, List.take_left, if_neg lowerInner,
    List.append_assoc, width, behind, List.take_left]

/-- A text in a `<pre>` block is read back, also where it looks like entities or tags. -/
theorem htmlToText_wrapPlainAsHtml (text : Text) :
    htmlToText (wrapPlainAsHtml text "text/plain".toList) = text := by
  have isPlain : (contains "text/plain".toList "text/plain".toList &&
      !contains "text/plain".toList "text/html".toList) = true := by decide
  have enclosed := @trim_append_enclosed '<' '>' (by decide) (by decide) []
    ("pre>".toList ++ encoded '&' htmlEntities text ++ "</pre".toList)
  have trimmed : trim ("<pre>".toList ++ encoded '&' htmlEntities text ++ "</pre>".toList) =
      "<pre>".toList ++ encoded '&' htmlEntities text ++ "</pre>".toList := by
    simpa [trimStart] using enclosed
  rw [wrapPlainAsHtml, isPlain, if_pos rfl, htmlEscape, escape_eq_encoded, htmlToText, trimmed,
    flatPre_block (not_mem_encoded text)]
  exact decodeEntities_encoded text

end TutaBridge.Mail
