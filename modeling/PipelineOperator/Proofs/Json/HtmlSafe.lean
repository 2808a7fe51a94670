import PipelineOperator.Proofs.Json.RoundTrip

/-!
HTML-safe text. It is the plain text with five characters replaced by escapes, which is sound
because these characters occur in strings only, and there stand for themselves
(`htmlSafe_eq_replaced`). So none of them is left, and an exact document is read back as it was
(`htmlSafe_isLossless`).
-/

set_option autoImplicit false
set_option relaxedAutoImplicit false

namespace PipelineOperator

namespace Json

/-- How a character of a plain text stands in the HTML-safe one. -/
def replaced (c : Char) : List Char := if isHtmlSensitive c then unicodeEscape c else [c]

theorem isHtmlSensitive_iff {c : Char} :
    isHtmlSensitive c = true ↔ c ∈ ['<', '>', '&', '\u2028', '\u2029'] := by
  simp [isHtmlSensitive, or_assoc]

theorem isHtmlSensitive_hexDigit (n : Nat) : isHtmlSensitive (Text.hexDigit n) = false := by
  have hdigits : ∀ c ∈ "0123456789abcdef".toList, isHtmlSensitive c = false := by
    simp [isHtmlSensitive]
  unfold Text.hexDigit
  rw [List.getD_eq_getElem?_getD]
  cases hdigit : "0123456789abcdef".toList[n]? with
  | none => rfl
  | some c => exact hdigits c (List.mem_of_getElem? hdigit)

theorem isHtmlSensitive_unicodeEscape (c : Char) :
    ∀ d ∈ unicodeEscape c, isHtmlSensitive d = false := by
  have hmarks : isHtmlSensitive '\\' = false ∧ isHtmlSensitive 'u' = false := by decide
  simp [unicodeEscape, isHtmlSensitive_hexDigit, hmarks]

theorem isHtmlSensitive_of_isNumeral {c : Char} (hnumeral : Decimal.IsNumeral c) :
    isHtmlSensitive c = false := by
  rw [← Bool.not_eq_true, isHtmlSensitive_iff]
  intro hsensitive
  have hdigit : ∀ c ∈ ['<', '>', '&', '\u2028', '\u2029'], c.isDigit = false := by simp
  have hother : ∀ c ∈ ['<', '>', '&', '\u2028', '\u2029'], c ∉ ['-', '+', '.', 'e'] := by simp
  rcases hnumeral with hc | hc
  · exact nomatch hc.symm.trans (hdigit c hsensitive)
  · exact hother c hsensitive hc

/-- Whatever the text, once its characters are replaced none of the five is left. -/
theorem isHtmlSensitive_of_mem_replaced {chars : List Char} :
    ∀ c ∈ chars.flatMap replaced, isHtmlSensitive c = false := by
  intro c hc
  obtain ⟨d, -, hd⟩ := List.mem_flatMap.mp hc
  unfold replaced at hd
  split at hd
  · exact isHtmlSensitive_unicodeEscape d c hd
  · next hplain => rwa [List.mem_singleton.mp hd, ← Bool.not_eq_true]

theorem flatMap_replaced {chars : List Char} (hplain : ∀ c ∈ chars, isHtmlSensitive c = false) :
    chars.flatMap replaced = chars := by
  induction chars with
  | nil => rfl
  | cons c chars ih =>
    obtain ⟨hc, hchars⟩ := List.forall_mem_cons.mp hplain
    rw [List.flatMap_cons, ih hchars, replaced, hc]
    rfl

/-- The escapes of a plain text have none of the five characters, which are not escaped in it. -/
theorem escapeHtml_eq_replaced (c : Char) : escapeHtml c = (escape c).flatMap replaced := by
  unfold escapeHtml
  split
  · next hsensitive =>
    have hplain : escape c = [c] := by
      rw [isHtmlSensitive_iff] at hsensitive
      have hall : ∀ c ∈ ['<', '>', '&', '\u2028', '\u2029'], escape c = [c] := by simp [escape]
      exact hall c hsensitive
    rw [hplain, List.flatMap_singleton, replaced, if_pos hsensitive]
  · next hplain =>
    refine (flatMap_replaced ?_).symm
    unfold escape
    split
    case h_8 =>
      split
      · exact isHtmlSensitive_unicodeEscape c
      · exact List.forall_mem_singleton.mpr (Bool.eq_false_iff.mpr hplain)
    all_goals simp [isHtmlSensitive]

theorem renderString_escapeHtml (text : String) :
    renderString escapeHtml text = (renderString escape text).flatMap replaced := by
  have hchars : text.toList.flatMap escapeHtml = (text.toList.flatMap escape).flatMap replaced := by
    rw [List.flatMap_assoc, ← funext escapeHtml_eq_replaced]
  unfold renderString
  rw [hchars, List.flatMap_append, List.flatMap_cons]
  rfl

mutual

theorem render_escapeHtml : (document : Json) →
    render escapeHtml document = (render escape document).flatMap replaced
  | .null => rfl
  | .illegible => rfl
  | .bool true => rfl
  | .bool false => rfl
  | .integer value => (flatMap_replaced fun c hc ↦
      isHtmlSensitive_of_isNumeral (Decimal.isNumeral_intChars value c hc)).symm
  | .real _ => (flatMap_replaced fun c hc ↦
      isHtmlSensitive_of_isNumeral (Decimal.isNumeral_jsonText _ c hc)).symm
  | .string text => renderString_escapeHtml text
  | .array items => congrArg ('[' :: ·) (renderItems_escapeHtml items)
  | .object members => congrArg ('\x7b' :: ·) (renderMembers_escapeHtml members)

theorem renderItems_escapeHtml : (items : List Json) →
    renderItems escapeHtml items = (renderItems escape items).flatMap replaced
  | [] => rfl
  | [item] => by
    rw [renderItems, renderItems, render_escapeHtml item, List.flatMap_append]
    rfl
  | item :: next :: items => by
    rw [renderItems_cons_cons, renderItems_cons_cons, render_escapeHtml item,
      renderItems_escapeHtml (next :: items), List.flatMap_append]
    rfl

theorem renderMembers_escapeHtml : (members : List (String × Json)) →
    renderMembers escapeHtml members = (renderMembers escape members).flatMap replaced
  | [] => rfl
  | [(name, value)] => by
    rw [renderMembers, renderMembers, renderString_escapeHtml, render_escapeHtml value,
      List.flatMap_append, List.flatMap_append]
    rfl
  | (name, value) :: next :: members => by
    rw [renderMembers_cons_cons, renderMembers_cons_cons, renderString_escapeHtml,
      render_escapeHtml value, renderMembers_escapeHtml (next :: members), List.flatMap_append,
      List.flatMap_append]
    rfl

end

/-- Replacing on the finished text comes to the same as escaping inside its strings. -/
theorem htmlSafe_eq_replaced (document : Json) :
    document.htmlSafe.toList = document.text.toList.flatMap replaced := by
  unfold htmlSafe text
  rw [String.toList_ofList, String.toList_ofList, render_escapeHtml]

/-- The HTML-safe text of a document is its plain text with the five characters replaced. It has
none of them, and is read as the document, if that is exact. -/
theorem htmlSafe_isLossless (document : Json) :
    document.htmlSafe.toList = document.text.toList.flatMap replaced ∧
      (∀ c ∈ ['<', '>', '&', '\u2028', '\u2029'], c ∉ document.htmlSafe.toList) ∧
      (document.isExact = true → ofText? document.htmlSafe = some document) := by
  refine ⟨htmlSafe_eq_replaced document, fun c hc hin ↦ ?_,
    ofText?_render Lexeme.faithful_escapeHtml⟩
  rw [htmlSafe_eq_replaced] at hin
  exact nomatch (isHtmlSensitive_iff.mpr hc).symm.trans (isHtmlSensitive_of_mem_replaced c hin)

/-- Texts with all kinds of escapes, names that are empty or written twice, and the integers at both
ends of their range. -/
def nested : Json :=
  .object [
    ("a<\u2028b", .array [.string "\\\\&\"\n\x01>", .integer (-9223372036854775808), .object []]),
    ("", .object [
      ("é", .integer 18446744073709551615), ("é", .array [.null, .bool true, .array []])])]

theorem htmlSafe_isLossless_nested :
    nested.isExact = true ∧ ofText? nested.htmlSafe = some nested :=
  ⟨by decide, (htmlSafe_isLossless nested).2.2 (by decide)⟩

end Json

end PipelineOperator
