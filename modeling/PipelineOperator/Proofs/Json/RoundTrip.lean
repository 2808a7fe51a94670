import Mathlib.Data.List.TakeWhile
import PipelineOperator.Proofs.Json.Scanning

/-!
Writing a document and reading it back. What a reader makes of a value that is written in front of
some text is what it makes of that text with the value in place (`Assembly.reads_render`), for every
way of escaping that is faithful. So a document of exact values is read from its text as it was
(`ofText?_render`). Reals are left out: their text is that of the nearest double.
-/

set_option autoImplicit false
set_option relaxedAutoImplicit false

namespace PipelineOperator

namespace Json

open Lexeme

/-! ### Integers -/

/-- The characters at which words end. -/
def breaks : List Char :=
  [' ', '\n', '\r', '\t', '"', '[', ']', '\x7b', '\x7d', ',', ':']

theorem isLetter_of_notMem_breaks {c : Char} (hc : c ∉ breaks) : isLetter c = true := by
  simp only [breaks, List.mem_cons, List.not_mem_nil, or_false, not_or] at hc
  obtain ⟨hspace, hnewline, hreturn, htab, hquote, harray, harray', hobject, hobject', hcomma,
    hcolon⟩ := hc
  simp [isLetter, isSpace, ofMark?, *]

theorem isLetter_of_isNumeral {c : Char} (hnumeral : Decimal.IsNumeral c) : isLetter c = true := by
  refine isLetter_of_notMem_breaks fun hbreak ↦ ?_
  have hdigit : ∀ c ∈ breaks, c.isDigit = false := by simp [breaks]
  have hother : ∀ c ∈ breaks, c ∉ ['-', '+', '.', 'e'] := by simp [breaks]
  rcases hnumeral with hc | hc
  · exact nomatch hc.symm.trans (hdigit c hbreak)
  · exact hother c hbreak hc

theorem isLetter_intChars (n : Int) : ∀ c ∈ Decimal.intChars n, isLetter c = true :=
  fun c hc ↦ isLetter_of_isNumeral (Decimal.isNumeral_intChars n c hc)

theorem isDigit_of_mem_digitChars {n : Nat} {c : Char} (hc : c ∈ Decimal.digitChars n) :
    c.isDigit = true := Nat.isDigit_of_mem_toDigits (by decide) (by decide) hc

theorem intChars_ne_nil (n : Int) : Decimal.intChars n ≠ [] := by
  unfold Decimal.intChars
  split
  · exact List.cons_ne_nil _ _
  · exact Nat.toDigits_ne_nil

theorem digitsValue_digitChars (n : Nat) : digitsValue (Decimal.digitChars n) = n := by
  have hvalue := Nat.ofDigitChars_ten_toDigits (n := n)
  rwa [Nat.ofDigitChars_eq_foldl] at hvalue

/-- No number but zero is written with a zero in front. -/
theorem exists_digitChars_eq_cons {n : Nat} (hpos : 0 < n) :
    ∃ c rest, Decimal.digitChars n = c :: rest ∧ c ≠ '0' := by
  induction n using Nat.strongRecOn with
  | ind n ih =>
    unfold Decimal.digitChars at ih ⊢
    rw [Nat.toDigits_eq_if (by decide)]
    split
    · exact ⟨_, [], rfl, fun hzero ↦ absurd (Nat.digitChar_eq_zero.mp hzero) (by omega)⟩
    · obtain ⟨c, rest, hdigits, hc⟩ := ih (n / 10) (by omega) (by omega)
      exact ⟨c, rest ++ [_], by rw [hdigits, List.cons_append], hc⟩

theorem isWholePart_digitChars (n : Nat) : isWholePart (Decimal.digitChars n) = true := by
  rcases Nat.eq_zero_or_pos n with rfl | hpos
  · rfl
  · obtain ⟨c, rest, hdigits, hc⟩ := exists_digitChars_eq_cons hpos
    rw [hdigits]
    unfold isWholePart
    split
    · contradiction
    · rfl
    · simp_all

/-- Digits alone, after a sign or without one, are an integer as long as it has 64 bits. -/
theorem unsignedNumber?_digitChars (negative : Bool) (n : Nat) :
    unsignedNumber? negative (Decimal.digitChars n) =
      if negative then
        if n = 0 || -(n : Int) < Int64.minValue.toInt then
          some (realOf negative (Decimal.digitChars n) [] 0)
        else some (.integer (-(n : Int)))
      else if UInt64.size ≤ n then some (realOf negative (Decimal.digitChars n) [] 0)
      else some (.integer n) := by
  have hdigits : ∀ c ∈ Decimal.digitChars n, c.isDigit = true :=
    fun _ ↦ isDigit_of_mem_digitChars
  have htake : (Decimal.digitChars n).takeWhile Char.isDigit = Decimal.digitChars n :=
    List.takeWhile_eq_self_iff.mpr hdigits
  have hdrop : (Decimal.digitChars n).dropWhile Char.isDigit = [] :=
    List.dropWhile_eq_nil_iff.mpr hdigits
  simp [unsignedNumber?, htake, hdrop, isWholePart_digitChars, digitsValue_digitChars]

/-- An integer has 64 bits, with or without a sign. -/
def isWordSized (n : Int) : Bool := Int64.minValue.toInt ≤ n && n < UInt64.size

theorem isWordSized_toNat (n : UInt32) : isWordSized n.toNat = true := by
  have hlow : Int64.minValue.toInt ≤ 0 := by decide
  have hhigh := n.toNat_lt
  simp only [isWordSized, UInt64.size, Bool.and_eq_true, decide_eq_true_eq]
  omega

theorem isWordSized_toInt (n : Int64) : isWordSized n.toInt = true := by
  have hlow : Int64.minValue.toInt ≤ n.toInt := Int64.minValue_le_toInt n
  have hhigh : n.toInt ≤ Int64.maxValue.toInt := Int64.toInt_le n
  have hsize : Int64.maxValue.toInt < UInt64.size := by decide
  simp only [isWordSized, Bool.and_eq_true, decide_eq_true_eq]
  omega

theorem ofWord?_of_isDigit {c : Char} {rest : List Char} (hdigit : c.isDigit = true) :
    ofWord? (c :: rest) = unsignedNumber? false (c :: rest) := by
  have hne {d : Char} (hd : d.isDigit = false) : c ≠ d := by
    rintro rfl
    exact nomatch hdigit.symm.trans hd
  unfold ofWord?
  split
  · next h => exact absurd (List.cons.inj h).1 (hne rfl)
  · next h => exact absurd (List.cons.inj h).1 (hne rfl)
  · next h => exact absurd (List.cons.inj h).1 (hne rfl)
  · next h => exact absurd (List.cons.inj h).1 (hne rfl)
  · rfl

theorem ofWord?_intChars {n : Int} (hsized : isWordSized n = true) :
    ofWord? (Decimal.intChars n) = some (.integer n) := by
  rw [isWordSized, Bool.and_eq_true, decide_eq_true_eq, decide_eq_true_eq] at hsized
  unfold Decimal.intChars
  split
  · next hnegative =>
    have hvalue : -(n.natAbs : Int) = n := by omega
    have hword : ofWord? ('-' :: Decimal.digitChars n.natAbs) =
        unsignedNumber? true (Decimal.digitChars n.natAbs) := rfl
    rw [hword, unsignedNumber?_digitChars, if_pos rfl, if_neg, hvalue]
    simp only [hvalue, Bool.or_eq_true, decide_eq_true_eq]
    omega
  · next hnonnegative =>
    have hvalue : (n.natAbs : Int) = n := by omega
    have hword : ofWord? (Decimal.digitChars n.natAbs) =
        unsignedNumber? false (Decimal.digitChars n.natAbs) := by
      cases hdigits : Decimal.digitChars n.natAbs with
      | nil => exact absurd hdigits Nat.toDigits_ne_nil
      | cons c rest =>
        exact ofWord?_of_isDigit (isDigit_of_mem_digitChars (hdigits ▸ List.mem_cons_self ..))
    rw [hword, unsignedNumber?_digitChars, if_neg (by decide), if_neg (by omega), hvalue]

/-! ### Values in their places -/

namespace Expectation

/-- A value may come next. -/
inductive TakesValue : Expectation → Prop
  | value : TakesValue value
  | valueOrClose : TakesValue valueOrClose

/-- A name may come next. -/
inductive TakesName : Expectation → Prop
  | name : TakesName name
  | nameOrClose : TakesName nameOrClose

end Expectation

namespace Assembly

variable {state : Assembly} {lexeme : Lexeme} {frames : List Frame} {expect : Expectation}
  {chars rest : List Char} {escaping : Char → List Char}

/-- What becomes of the document when a text follows. -/
def reads (state : Assembly) (chars : List Char) : Option Json :=
  (Lexeme.scan .idle chars).bind (assemble state)

theorem reads_of_scan
    (hscan : Lexeme.scan .idle chars = (Lexeme.scan .idle rest).map (lexeme :: ·)) :
    state.reads chars = (state.accept lexeme).bind fun next ↦ next.reads rest := by
  unfold reads
  rw [hscan, Option.bind_map, Option.bind_comm]
  rfl

theorem accept_of_takesValue (htakes : expect.TakesValue) (hlexeme : lexeme ≠ .closeArray) :
    (⟨frames, expect, none⟩ : Assembly).accept lexeme = acceptValue frames lexeme := by
  cases htakes with
  | value => rfl
  | valueOrClose => exact if_neg hlexeme

theorem accept_of_takesName (htakes : expect.TakesName) (hlexeme : lexeme ≠ .closeObject) :
    (⟨frames, expect, none⟩ : Assembly).accept lexeme = acceptName frames lexeme := by
  cases htakes with
  | name => rfl
  | nameOrClose => exact if_neg hlexeme

theorem reads_word {letters : List Char} {value : Json} (hnonempty : letters ≠ [])
    (hletters : ∀ c ∈ letters, isLetter c = true) (hvalue : ofWord? letters = some value)
    (htakes : expect.TakesValue) (hends : EndsWords rest) :
    (⟨frames, expect, none⟩ : Assembly).reads (letters ++ rest) =
      (place frames value).reads rest := by
  rw [reads_of_scan (scan_word hnonempty hletters hends),
    accept_of_takesValue htakes (by exact nofun), acceptValue, hvalue]
  rfl

theorem reads_string (hfaithful : Faithful escaping) (text : String)
    (htakes : expect.TakesValue) :
    (⟨frames, expect, none⟩ : Assembly).reads (renderString escaping text ++ rest) =
      (place frames (.string text)).reads rest := by
  rw [reads_of_scan (scan_renderString hfaithful text rest),
    accept_of_takesValue htakes (by exact nofun)]
  rfl

theorem reads_mark {c : Char} (mark : Lexeme) (hmark : ofMark? c = some mark) (rest : List Char) :
    state.reads (c :: rest) = (state.accept mark).bind fun next ↦ next.reads rest :=
  reads_of_scan (scan_mark hmark rest)

theorem reads_openArray (htakes : expect.TakesValue) (rest : List Char) :
    (⟨frames, expect, none⟩ : Assembly).reads ('[' :: rest) =
      (⟨.array [] :: frames, .valueOrClose, none⟩ : Assembly).reads rest := by
  rw [reads_mark .openArray rfl, accept_of_takesValue htakes (by exact nofun)]
  rfl

theorem reads_openObject (htakes : expect.TakesValue) (rest : List Char) :
    (⟨frames, expect, none⟩ : Assembly).reads ('\x7b' :: rest) =
      (⟨.object [] "" :: frames, .nameOrClose, none⟩ : Assembly).reads rest := by
  rw [reads_mark .openObject rfl, accept_of_takesValue htakes (by exact nofun)]
  rfl

theorem reads_closeArray (items : List Json) (rest : List Char) :
    (⟨.array items :: frames, .separator, none⟩ : Assembly).reads (']' :: rest) =
      (place frames (.array items.reverse)).reads rest :=
  reads_mark .closeArray rfl rest

theorem reads_closeObject (members : List (String × Json)) (name : String) (rest : List Char) :
    (⟨.object members name :: frames, .separator, none⟩ : Assembly).reads ('\x7d' :: rest) =
      (place frames (.object members.reverse)).reads rest :=
  reads_mark .closeObject rfl rest

theorem reads_arrayComma (items : List Json) (rest : List Char) :
    (⟨.array items :: frames, .separator, none⟩ : Assembly).reads (',' :: rest) =
      (⟨.array items :: frames, .value, none⟩ : Assembly).reads rest :=
  reads_mark .comma rfl rest

theorem reads_objectComma (members : List (String × Json)) (name : String) (rest : List Char) :
    (⟨.object members name :: frames, .separator, none⟩ : Assembly).reads (',' :: rest) =
      (⟨.object members name :: frames, .name, none⟩ : Assembly).reads rest :=
  reads_mark .comma rfl rest

/-- A name and the colon after it. -/
theorem reads_name (hfaithful : Faithful escaping) (name previous : String)
    (members : List (String × Json)) (htakes : expect.TakesName) (rest : List Char) :
    (⟨.object members previous :: frames, expect, none⟩ : Assembly).reads
        (renderString escaping name ++ ':' :: rest) =
      (⟨.object members name :: frames, .value, none⟩ : Assembly).reads rest := by
  rw [reads_of_scan (scan_renderString hfaithful name (':' :: rest)),
    accept_of_takesName htakes (by exact nofun)]
  exact reads_mark .colon rfl rest

end Assembly

/-! ### Documents -/

mutual

/-- The values of the document are those that a text states exactly: integers have 64 bits, and
there are no reals. -/
def isExact : Json → Bool
  | integer value => isWordSized value
  | real _ => false
  | illegible => false
  | array items => isExactItems items
  | object members => isExactMembers members
  | _ => true

def isExactItems : List Json → Bool
  | [] => true
  | item :: rest => isExact item && isExactItems rest

def isExactMembers : List (String × Json) → Bool
  | [] => true
  | (_, value) :: rest => isExact value && isExactMembers rest

end

theorem isExactItems_eq_all (items : List Json) : isExactItems items = items.all isExact := by
  induction items with
  | nil => rfl
  | cons item rest ih => rw [isExactItems, ih, List.all_cons]

mutual

theorem isLegible_of_isExact : (document : Json) → document.isExact = true →
    document.isLegible = true
  | .null, _ => rfl
  | .bool _, _ => rfl
  | .integer _, _ => rfl
  | .string _, _ => rfl
  | .array items, hexact => isLegibleItems_of_isExactItems items hexact
  | .object members, hexact => isLegibleMembers_of_isExactMembers members hexact

theorem isLegibleItems_of_isExactItems : (items : List Json) → isExactItems items = true →
    isLegibleItems items = true
  | [], _ => rfl
  | item :: rest, hexact => by
    obtain ⟨hitem, hrest⟩ := Bool.and_eq_true_iff.mp hexact
    exact Bool.and_eq_true_iff.mpr
      ⟨isLegible_of_isExact item hitem, isLegibleItems_of_isExactItems rest hrest⟩

theorem isLegibleMembers_of_isExactMembers : (members : List (String × Json)) →
    isExactMembers members = true → isLegibleMembers members = true
  | [], _ => rfl
  | (_, value) :: rest, hexact => by
    obtain ⟨hvalue, hrest⟩ := Bool.and_eq_true_iff.mp hexact
    exact Bool.and_eq_true_iff.mpr
      ⟨isLegible_of_isExact value hvalue, isLegibleMembers_of_isExactMembers rest hrest⟩

end

theorem renderItems_cons_cons (escaping : Char → List Char) (item next : Json)
    (items : List Json) : renderItems escaping (item :: next :: items) =
      render escaping item ++ ',' :: renderItems escaping (next :: items) := rfl

theorem renderMembers_cons_cons (escaping : Char → List Char) (name : String) (value : Json)
    (next : String × Json) (members : List (String × Json)) :
    renderMembers escaping ((name, value) :: next :: members) =
      renderString escaping name ++ ':' :: render escaping value ++
        ',' :: renderMembers escaping (next :: members) := rfl

/-- Items end with the bracket that closes their array. -/
theorem exists_renderItems (escaping : Char → List Char) (items : List Json) :
    ∃ body, renderItems escaping items = body ++ [']'] := by
  induction items with
  | nil => exact ⟨[], rfl⟩
  | cons item items ih =>
    cases items with
    | nil => exact ⟨render escaping item, rfl⟩
    | cons next items =>
      obtain ⟨body, hbody⟩ := ih
      refine ⟨render escaping item ++ ',' :: body, ?_⟩
      rw [renderItems_cons_cons, hbody, List.append_assoc, List.cons_append]

variable {escaping : Char → List Char}

namespace Assembly

mutual

/-- A value that is written is read into its place. -/
theorem reads_render (hfaithful : Faithful escaping) : (document : Json) →
    document.isExact = true → ∀ {frames expect rest}, Expectation.TakesValue expect →
      EndsWords rest →
        (⟨frames, expect, none⟩ : Assembly).reads (render escaping document ++ rest) =
          (place frames document).reads rest
  | .null, _, _, _, _, htakes, hends =>
    reads_word (List.cons_ne_nil _ _) (by simp [render, isLetter, isSpace, ofMark?]) rfl htakes
      hends
  | .bool true, _, _, _, _, htakes, hends =>
    reads_word (List.cons_ne_nil _ _) (by simp [render, isLetter, isSpace, ofMark?]) rfl htakes
      hends
  | .bool false, _, _, _, _, htakes, hends =>
    reads_word (List.cons_ne_nil _ _) (by simp [render, isLetter, isSpace, ofMark?]) rfl htakes
      hends
  | .integer value, hexact, _, _, _, htakes, hends =>
    reads_word (intChars_ne_nil value) (isLetter_intChars value) (ofWord?_intChars hexact) htakes
      hends
  | .string text, _, _, _, _, htakes, _ => reads_string hfaithful text htakes
  | .array [], _, _, _, rest, htakes, _ =>
    (reads_openArray htakes _).trans (reads_mark .closeArray rfl rest)
  | .array (item :: items), hexact, _, _, _, htakes, _ =>
    (reads_openArray htakes _).trans
      (reads_renderItems hfaithful (item :: items) hexact (List.cons_ne_nil _ _) .valueOrClose)
  | .object [], _, _, _, rest, htakes, _ =>
    (reads_openObject htakes _).trans (reads_mark .closeObject rfl rest)
  | .object (member :: members), hexact, _, _, _, htakes, _ =>
    (reads_openObject htakes _).trans
      (reads_renderMembers hfaithful (member :: members) hexact (List.cons_ne_nil _ _)
        .nameOrClose)

theorem reads_renderItems (hfaithful : Faithful escaping) : (items : List Json) →
    isExactItems items = true → items ≠ [] → ∀ {frames done expect rest},
      Expectation.TakesValue expect →
        (⟨.array done :: frames, expect, none⟩ : Assembly).reads
            (renderItems escaping items ++ rest) =
          (place frames (.array (done.reverse ++ items))).reads rest
  | [], _, hnonempty, _, _, _, _, _ => absurd rfl hnonempty
  | [item], hexact, _, frames, done, expect, rest, htakes => by
    have hitem : item.isExact = true := (Bool.and_eq_true_iff.mp hexact).1
    rw [renderItems, List.append_assoc, List.singleton_append,
      reads_render hfaithful item hitem htakes (endsWords_mark rfl rest)]
    exact (reads_closeArray (item :: done) rest).trans (by rw [List.reverse_cons])
  | item :: next :: items, hexact, _, frames, done, expect, rest, htakes => by
    obtain ⟨hitem, hitems⟩ := Bool.and_eq_true_iff.mp hexact
    rw [renderItems_cons_cons, List.append_assoc, List.cons_append,
      reads_render hfaithful item hitem htakes (endsWords_mark rfl _)]
    refine (reads_arrayComma (item :: done) _).trans ?_
    rw [reads_renderItems hfaithful (next :: items) hitems (List.cons_ne_nil _ _) .value,
      List.reverse_cons, List.append_assoc, List.singleton_append]

theorem reads_renderMembers (hfaithful : Faithful escaping) : (members : List (String × Json)) →
    isExactMembers members = true → members ≠ [] → ∀ {frames done previous expect rest},
      Expectation.TakesName expect →
        (⟨.object done previous :: frames, expect, none⟩ : Assembly).reads
            (renderMembers escaping members ++ rest) =
          (place frames (.object (done.reverse ++ members))).reads rest
  | [], _, hnonempty, _, _, _, _, _, _ => absurd rfl hnonempty
  | [(name, value)], hexact, _, frames, done, previous, expect, rest, htakes => by
    have hvalue : value.isExact = true := (Bool.and_eq_true_iff.mp hexact).1
    rw [renderMembers, List.append_assoc, List.append_assoc, List.cons_append,
      reads_name hfaithful name previous done htakes, List.singleton_append,
      reads_render hfaithful value hvalue .value (endsWords_mark rfl rest)]
    exact (reads_closeObject ((name, value) :: done) name rest).trans (by rw [List.reverse_cons])
  | (name, value) :: next :: members, hexact, _, frames, done, previous, expect, rest, htakes => by
    obtain ⟨hvalue, hmembers⟩ := Bool.and_eq_true_iff.mp hexact
    rw [renderMembers_cons_cons, List.append_assoc, List.append_assoc, List.cons_append,
      reads_name hfaithful name previous done htakes, List.cons_append,
      reads_render hfaithful value hvalue .value (endsWords_mark rfl _)]
    refine (reads_objectComma ((name, value) :: done) name _).trans ?_
    rw [reads_renderMembers hfaithful (next :: members) hmembers (List.cons_ne_nil _ _) .name,
      List.reverse_cons, List.append_assoc, List.singleton_append]

end

end Assembly

/-- An exact document is read from its text as it was, with whatever faithful escapes. -/
theorem ofText?_render (hfaithful : Faithful escaping) {document : Json}
    (hexact : document.isExact = true) :
    ofText? (String.ofList (render escaping document)) = some document := by
  have hread : ofLooseChars? (render escaping document) = some document := by
    have hreads : Assembly.start.reads (render escaping document ++ []) =
        (Assembly.place [] document).reads [] :=
      Assembly.reads_render hfaithful document hexact .value trivial
    rwa [List.append_nil] at hreads
  unfold ofText? ofLooseText?
  rw [String.toList_ofList, hread, Option.filter_some,
    if_pos (isLegible_of_isExact document hexact)]

end Json

end PipelineOperator
