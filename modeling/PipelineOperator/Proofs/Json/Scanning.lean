import PipelineOperator.Json.Reader
import PipelineOperator.Json.Text

/-!
Scanning what is written. Words end where a character cannot belong to them, and marks stand for
themselves. A string is scanned as what it was written from if its way of escaping is faithful: each
character, escaped, is read as that character (`Lexeme.scan_renderString`). Both ways of escaping
are (`Lexeme.faithful_escape`, `Lexeme.faithful_escapeHtml`), since no escape that they write is a
half of a pair.
-/

set_option autoImplicit false
set_option relaxedAutoImplicit false

namespace PipelineOperator

namespace Json

namespace Lexeme

variable {scanner next : Scanner} {lexemes : List Lexeme} {c : Char} {letters rest : List Char}
  {glyphs : Glyphs} {escaping : Char → List Char}

theorem scan_of_step (hstep : step scanner c = some (next, lexemes)) (rest : List Char) :
    scan scanner (c :: rest) = (scan next rest).map (lexemes ++ ·) := by
  rw [scan, hstep]
  exact (Option.map_eq_bind ..).symm

theorem scan_of_silent_step (hstep : step scanner c = some (next, [])) (rest : List Char) :
    scan scanner (c :: rest) = scan next rest := by
  rw [scan_of_step hstep]
  cases scan next rest <;> rfl

/-! ### Marks and words -/

/-- The character can belong to a word. -/
def isLetter (c : Char) : Bool := !(isSpace c || c == '"' || (ofMark? c).isSome)

/-- Words before this text end where it begins. -/
def EndsWords : List Char → Prop
  | [] => True
  | c :: _ => isLetter c = false

theorem startAt_of_mark {mark : Lexeme} (hmark : ofMark? c = some mark) :
    startAt c = (.idle, [mark]) := by
  unfold startAt
  rw [hmark, if_neg, if_neg]
  · rintro rfl
    exact nomatch hmark
  · intro hspace
    simp only [isSpace, Bool.or_eq_true, beq_iff_eq] at hspace
    rcases hspace with ((rfl | rfl) | rfl) | rfl <;> exact nomatch hmark

theorem scan_mark {mark : Lexeme} (hmark : ofMark? c = some mark) (rest : List Char) :
    scan .idle (c :: rest) = (scan .idle rest).map (mark :: ·) := by
  have hstep : step .idle c = some (.idle, [mark]) := congrArg some (startAt_of_mark hmark)
  exact scan_of_step hstep rest

theorem endsWords_mark {mark : Lexeme} (hmark : ofMark? c = some mark) (rest : List Char) :
    EndsWords (c :: rest) := by
  show (!(_ || (ofMark? c).isSome)) = false
  rw [hmark, Option.isSome_some, Bool.or_true, Bool.not_true]

theorem scan_letters (hletters : ∀ c ∈ letters, isLetter c = true) (hends : EndsWords rest)
    (read : List Char) : scan (.word read) (letters ++ rest) =
      (scan .idle rest).map (word (read.reverse ++ letters) :: ·) := by
  induction letters generalizing read with
  | nil =>
    rw [List.append_nil]
    cases rest with
    | nil => rfl
    | cons c rest =>
      have hends : isLetter c = false := hends
      rw [isLetter, Bool.not_eq_false'] at hends
      have hword : step (.word read) c =
          some ((startAt c).1, word read.reverse :: (startAt c).2) := by
        rw [step, if_pos hends]
      rw [List.nil_append, scan_of_step hword, scan_of_step rfl, Option.map_map]
      rfl
  | cons c letters ih =>
    obtain ⟨hletter, hletters⟩ := List.forall_mem_cons.mp hletters
    rw [isLetter, Bool.not_eq_true'] at hletter
    have hword : step (.word read) c = some (.word (c :: read), []) := by
      rw [step, if_neg (Bool.eq_false_iff.mp hletter)]
    rw [List.cons_append, scan_of_silent_step hword, ih hletters, List.reverse_cons,
      List.append_assoc, List.singleton_append]

theorem scan_word (hnonempty : letters ≠ []) (hletters : ∀ c ∈ letters, isLetter c = true)
    (hends : EndsWords rest) :
    scan .idle (letters ++ rest) = (scan .idle rest).map (word letters :: ·) := by
  cases letters with
  | nil => exact absurd rfl hnonempty
  | cons c letters =>
    obtain ⟨hletter, hletters⟩ := List.forall_mem_cons.mp hletters
    rw [isLetter, Bool.not_eq_true', Bool.or_eq_false_iff, Bool.or_eq_false_iff] at hletter
    obtain ⟨⟨hspace, hquote⟩, hmark⟩ := hletter
    have hstart : step .idle c = some (.word [c], []) := by
      show some (startAt c) = _
      unfold startAt
      rw [if_neg (Bool.eq_false_iff.mp hspace), if_neg (beq_eq_false_iff_ne.mp hquote),
        Option.isSome_eq_false_iff.mp hmark |> Option.isNone_iff_eq_none.mp]
    rw [List.cons_append, scan_of_silent_step hstart, scan_letters hletters hends]
    rfl

/-! ### Strings -/

/-- Every character, escaped, is read as that character. -/
def Faithful (escaping : Char → List Char) : Prop :=
  ∀ c glyphs rest,
    scan (.quoted glyphs) (escaping c ++ rest) = scan (.quoted (some c :: glyphs)) rest

theorem scan_escaped (hfaithful : Faithful escaping) (chars : List Char) (glyphs : Glyphs)
    (rest : List Char) : scan (.quoted glyphs) (chars.flatMap escaping ++ rest) =
      scan (.quoted ((chars.map some).reverse ++ glyphs)) rest := by
  induction chars generalizing glyphs with
  | nil => rfl
  | cons c chars ih =>
    rw [List.flatMap_cons, List.append_assoc, hfaithful, ih, List.map_cons, List.reverse_cons,
      List.append_assoc, List.singleton_append]

theorem text?_reverse_map_some (chars : List Char) :
    Glyphs.text? (chars.map some).reverse = some (String.ofList chars) := by
  have hmapM : (chars.map some).mapM id = some chars := by
    induction chars with
    | nil => rfl
    | cons c chars ih => simp [ih]
  unfold Glyphs.text?
  rw [List.reverse_reverse, hmapM, Option.map_some]

/-- The four digits of an escape give the character back. -/
theorem scan_unicodeEscape (hsmall : c.toNat < 0x10000) (glyphs : Glyphs) (rest : List Char) :
    scan (.quoted glyphs) (unicodeEscape c ++ rest) = scan (.quoted (some c :: glyphs)) rest := by
  have hdigit {count value : Nat} (hcount : count < 3) (n : Nat) (rest : List Char) :
      scan (.code glyphs none count value) (Text.hexDigit (n % 16) :: rest) =
        scan (.code glyphs none (count + 1) (16 * value + n % 16)) rest := by
    refine scan_of_silent_step ?_ rest
    rw [step, Text.hexValue?_hexDigit (Nat.mod_lt n (by decide))]
    exact if_neg (Nat.ne_of_lt hcount)
  have hlast {value : Nat} (n : Nat) (rest : List Char) :
      scan (.code glyphs none 3 value) (Text.hexDigit (n % 16) :: rest) =
        scan (finishCode glyphs none (16 * value + n % 16)) rest := by
    refine scan_of_silent_step ?_ rest
    rw [step, Text.hexValue?_hexDigit (Nat.mod_lt n (by decide))]
    rfl
  have hopen : step (.quoted glyphs) '\\' = some (.escaped glyphs, []) := rfl
  have hcode : step (.escaped glyphs) 'u' = some (.code glyphs none 0 0, []) := rfl
  have hvalue : 16 * (16 * (16 * (16 * 0 + c.toNat / 4096 % 16) + c.toNat / 256 % 16) +
      c.toNat / 16 % 16) + c.toNat / 1 % 16 = c.toNat := by omega
  -- No character is a half of a pair.
  have hwhole : c.toNat < 0xD800 ∨ 0xDFFF < c.toNat ∧ c.toNat < 0x110000 := c.valid
  have hfinish : finishCode glyphs none c.toNat = .quoted (some c :: glyphs) := by
    unfold finishCode
    rw [if_neg (by omega), if_neg (by omega), Char.ofNat_toNat]
  unfold unicodeEscape
  simp only [List.cons_append, List.nil_append]
  rw [scan_of_silent_step hopen, scan_of_silent_step hcode, hdigit (by decide), hdigit (by decide),
    hdigit (by decide), hlast, hvalue, hfinish]

theorem faithful_escape : Faithful escape := by
  intro c glyphs rest
  have hpair {mark : Char}
      (hstep : step (.escaped glyphs) mark = some (.quoted (some c :: glyphs), [])) :
      scan (.quoted glyphs) (['\\', mark] ++ rest) = scan (.quoted (some c :: glyphs)) rest := by
    have hopen : step (.quoted glyphs) '\\' = some (.escaped glyphs, []) := rfl
    exact (scan_of_silent_step hopen _).trans (scan_of_silent_step hstep rest)
  unfold escape
  split
  case h_8 hquote hbackslash _ _ _ _ _ =>
    split
    · exact scan_unicodeEscape (by omega) glyphs rest
    · next hplain =>
      refine scan_of_silent_step ?_ rest
      rw [step, stepQuoted, if_neg hquote, if_neg hbackslash, if_neg hplain]
  all_goals exact hpair rfl

theorem faithful_escapeHtml : Faithful escapeHtml := by
  intro c glyphs rest
  unfold escapeHtml
  split
  · next hsensitive =>
    refine scan_unicodeEscape ?_ glyphs rest
    simp only [isHtmlSensitive, Bool.or_eq_true, beq_iff_eq] at hsensitive
    rcases hsensitive with (((rfl | rfl) | rfl) | rfl) | rfl <;> decide
  · exact faithful_escape c glyphs rest

/-- A string that is written is scanned as that string. -/
theorem scan_renderString (hfaithful : Faithful escaping) (text : String) (rest : List Char) :
    scan .idle (renderString escaping text ++ rest) =
      (scan .idle rest).map (quoted (some text) :: ·) := by
  have hopen : step .idle '"' = some (.quoted [], []) := rfl
  have hclose : step (.quoted (text.toList.map some).reverse) '"' =
      some (.idle, [quoted (some text)]) := by
    rw [step, stepQuoted, if_pos rfl, text?_reverse_map_some, String.ofList_toList]
  unfold renderString
  rw [List.cons_append, List.cons_append, List.append_assoc, scan_of_silent_step hopen,
    scan_escaped hfaithful, List.append_nil, List.singleton_append, scan_of_step hclose]
  rfl

end Lexeme

end Json

end PipelineOperator
