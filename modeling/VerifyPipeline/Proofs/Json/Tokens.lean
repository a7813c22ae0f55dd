import VerifyPipeline.Json.Reader
import VerifyPipeline.Json.Writer

namespace VerifyPipeline

/-!
# Reading tokens that were written

A reader that is given what a writer wrote, with anything behind it, takes exactly that and gives
back what was written.  This module says so of the tokens that values are made of: literals, strings
and numerals.
-/

namespace Json.Reader

/-! ## Steps -/

@[simp]
theorem ok_bind
    (a : α)
    (next : α → Except ε β) :
    (Except.ok a >>= next) = next a := rfl

/-- Two steps succeed exactly if the first one does, and the second one with what it gives. -/
theorem bind_eq_ok
    {first : Except ε α}
    {next : α → Except ε β}
    {b : β} :
    first >>= next = .ok b ↔ ∃ a, first = .ok a ∧ next a = .ok b := by
  cases first <;> simp [bind, Except.bind]

@[simp]
theorem bind_apply
    (first : Reader α)
    (second : α → Reader β)
    (text : List Char) :
    (first >>= second) text = first text >>= fun read => second read.1 read.2 := rfl

@[simp]
theorem map_apply
    (f : α → β)
    (reader : Reader α)
    (text : List Char) :
    (f <$> reader) text = reader text >>= fun read => .ok (f read.1, read.2) := rfl

@[simp]
theorem pure_apply
    (a : α)
    (text : List Char) :
    (pure a : Reader α) text = .ok (a, text) := rfl

@[simp]
theorem peek?_apply (text : List Char) : peek? text = .ok (text.head?, text) := rfl

@[simp]
theorem advance_apply (text : List Char) : advance text = .ok ((), text.tail) := rfl

@[simp]
theorem rounds_apply (text : List Char) : rounds text = .ok (text.length + 1, text) := rfl

@[simp]
theorem remaining_apply (text : List Char) : remaining text = .ok (text, text) := rfl

/-- A word is read if it stands in front. -/
@[simp]
theorem literal_append (word rest : List Char) : literal word (word ++ rest) = .ok ((), rest) := by
  induction word with
  | nil =>
      rfl
  | cons c others inductionHypothesis =>
      simp [literal, inductionHypothesis]

/-- White space before a token does not matter. -/
theorem skipGaps_append
    {gaps : List Char}
    (blank : ∀ c ∈ gaps, isGap c = true)
    (text : List Char) :
    skipGaps (gaps ++ text) = skipGaps text := by
  simp [skipGaps, List.dropWhile_append_of_pos blank]

/-- Nothing is skipped in front of a token. -/
@[simp]
theorem skipGaps_cons
    {c : Char}
    (token : isGap c = false)
    (rest : List Char) :
    skipGaps (c :: rest) = .ok ((), c :: rest) := by
  simp [skipGaps, token]

/-- Gaps in front of a token are passed over. -/
theorem peekToken?_append
    {gaps : List Char}
    (blank : ∀ c ∈ gaps, isGap c = true)
    (text : List Char) :
    peekToken? (gaps ++ text) = peekToken? text := by
  simp [peekToken?, skipGaps_append blank]

@[simp]
theorem peekToken?_cons
    {c : Char}
    (token : isGap c = false)
    (rest : List Char) :
    peekToken? (c :: rest) = .ok (some c, c :: rest) := by
  simp [peekToken?, token]

/-! ## Rounds of loops -/

section Loops

variable
  {gaps : List Char}
  {text ahead left : List Char}
  {fuel : Nat}
  {first : Bool}
  {state next : σ}

/-- A closing bracket ends an array, whether or not it has items. -/
theorem hasItem_closing
    (blank : ∀ c ∈ gaps, isGap c = true)
    (rest : List Char) :
    hasItem first (gaps ++ ']' :: rest) = .ok (false, ']' :: rest) := by
  simp [hasItem, peekToken?_append blank, isGap]

/-- The first item stands behind the gaps after the bracket. -/
theorem hasItem_first
    (blank : ∀ c ∈ gaps, isGap c = true)
    {c : Char}
    (token : isGap c = false)
    (notClosing : c ≠ ']')
    (rest : List Char) :
    hasItem true (gaps ++ c :: rest) = .ok (true, c :: rest) := by
  simp [hasItem, peekToken?_append blank, token, notClosing]

/-- Every other item stands behind a comma. -/
theorem hasItem_next
    (blank : ∀ c ∈ gaps, isGap c = true)
    {c : Char}
    (token : isGap c = false)
    (notClosing : c ≠ ']')
    (rest : List Char) :
    hasItem false (',' :: (gaps ++ c :: rest)) = .ok (true, c :: rest) := by
  simp [hasItem, peekToken?_append blank, peekToken?_cons token, notClosing, isGap]

/-- An item that has been read leads on to the next one. -/
theorem itemLoop_of_item
    {item : σ → Reader σ}
    (found : hasItem first text = .ok (true, ahead))
    (read : item state ahead = .ok (next, left)) :
    itemLoop item (fuel + 1) first state text = itemLoop item fuel false next left := by
  simp [itemLoop, found, read]

/-- The closing bracket ends the loop over the items. -/
theorem itemLoop_of_closing
    {item : σ → Reader σ}
    (closing : hasItem first text = .ok (false, ahead)) :
    itemLoop item (fuel + 1) first state text = .ok (state, ahead) := by
  simp [itemLoop, closing]

/-- A closing brace ends an object. -/
theorem hasMember_closing
    (blank : ∀ c ∈ gaps, isGap c = true)
    (rest : List Char) :
    hasMember first (gaps ++ '\x7d' :: rest) = .ok (false, '\x7d' :: rest) := by
  simp [hasMember, peekToken?_append blank, isGap]

/-- The key of the first member stands behind the gaps after the brace. -/
theorem hasMember_first
    (blank : ∀ c ∈ gaps, isGap c = true)
    (rest : List Char) :
    hasMember true (gaps ++ '"' :: rest) = .ok (true, rest) := by
  simp [hasMember, openKey, peekToken?_append blank, isGap]

/-- Every other one stands behind a comma. -/
theorem hasMember_next
    (blank : ∀ c ∈ gaps, isGap c = true)
    (rest : List Char) :
    hasMember false (',' :: (gaps ++ '"' :: rest)) = .ok (true, rest) := by
  simp [hasMember, openKey, skipGaps_append blank, isGap]

/-- A member that has been read leads on to the next one. -/
theorem memberLoop_of_member
    {member : σ → Reader σ}
    (found : hasMember first text = .ok (true, ahead))
    (read : member state ahead = .ok (next, left)) :
    memberLoop member (fuel + 1) first state text = memberLoop member fuel false next left := by
  simp [memberLoop, found, read]

/-- The closing brace ends the loop over the members. -/
theorem memberLoop_of_closing
    {member : σ → Reader σ}
    (closing : hasMember first text = .ok (false, ahead)) :
    memberLoop member (fuel + 1) first state text = .ok (state, ahead) := by
  simp [memberLoop, closing]

end Loops

/-! ## Strings -/

/-- A control character is found again by its two digits. -/
theorem hexNumber?_control
    {n : Nat}
    (control : n < 0x20) :
    hexNumber? ['0', '0', Text.hexDigit (n / 16), Text.hexDigit (n % 16)] = some n := by
  have found :
      ∀ m : Fin 0x20,
        hexNumber? ['0', '0', Text.hexDigit (m / 16), Text.hexDigit (m % 16)] = some m.val := by
    decide
  exact found ⟨n, control⟩

/-- A control character is read back from the four digits of its escape. -/
theorem hexEscape_control
    {n : Nat}
    (control : n < 0x20)
    (rest : List Char) :
    hexEscape ('0' :: '0' :: Text.hexDigit (n / 16) :: Text.hexDigit (n % 16) :: rest) =
      .ok (n, rest) := by
  have long (c : Char) : 1 ≤ c.utf8Size := Char.utf8Size_pos c
  have enough :
      ¬ byteLength
        ('0' :: '0' :: Text.hexDigit (n / 16) :: Text.hexDigit (n % 16) :: rest) < 4 := by
    have first := long '0'
    have third := long (Text.hexDigit (n / 16))
    have fourth := long (Text.hexDigit (n % 16))
    simp only [byteLength, List.foldr_cons]
    omega
  simp [hexEscape, enough, hexNumber?_control control]

/-- A character that was written into a string is read back. -/
theorem stringLoop_escaped
    (c : Char)
    (fuel : Nat)
    (rest : List Char) :
    stringLoop (fuel + 1) (escaped c ++ rest) =
      stringLoop fuel rest >>= fun read => .ok (c :: read.1, read.2) := by
  unfold escaped
  split
  case h_8 quote backslash _ _ _ _ _ =>
    split
    case isTrue control =>
      have notFirst : ¬ (0xDC00 ≤ c.toNat ∧ c.toNat ≤ 0xDFFF) := by omega
      have notSecond : c.toNat < 0xD800 ∨ 0xDBFF < c.toNat := by omega
      simp [stringLoop, escape, namedEscape?, numberedChar, hexEscape_control control, notFirst,
        notSecond]
    case isFalse printable =>
      simp [stringLoop, if_neg quote, if_neg backslash, printable]
  all_goals simp [stringLoop, escape, namedEscape?]

/-- A text is read back from its escaped characters, by induction on them. -/
theorem stringLoop_append
    (text rest : List Char)
    {fuel : Nat}
    (enough : text.length < fuel) :
    stringLoop fuel (text.flatMap escaped ++ '"' :: rest) = .ok (text, rest) := by
  induction text generalizing fuel with
  | nil =>
      obtain ⟨fuel, rfl⟩ := Nat.exists_eq_succ_of_ne_zero (Nat.ne_zero_of_lt enough)
      simp [stringLoop]
  | cons c others inductionHypothesis =>
      obtain ⟨fuel, rfl⟩ := Nat.exists_eq_succ_of_ne_zero (Nat.ne_zero_of_lt enough)
      rw [List.flatMap_cons, List.append_assoc, Nat.succ_eq_add_one, stringLoop_escaped,
        inductionHypothesis (Nat.lt_of_succ_lt_succ enough)]
      rfl

/-- Escaping makes no text shorter. -/
theorem length_le_flatMap_escaped (text : List Char) :
    text.length ≤ (text.flatMap escaped).length := by
  induction text with
  | nil =>
      exact Nat.le_refl 0
  | cons c others inductionHypothesis =>
      have written : 1 ≤ (escaped c).length := by
        unfold escaped
        repeat' split
        all_goals simp
      simp only [List.flatMap_cons, List.length_append, List.length_cons]
      omega

/-- A string is read back from behind its opening quote. -/
theorem string_append
    (text : String)
    (rest : List Char) :
    string (text.toList.flatMap escaped ++ '"' :: rest) = .ok (text, rest) := by
  have long := length_le_flatMap_escaped text.toList
  have enough : text.toList.length < (text.toList.flatMap escaped ++ '"' :: rest).length + 1 := by
    simp only [List.length_append]
    omega
  rw [string, bind_apply, rounds_apply, ok_bind, bind_apply, stringLoop_append _ rest enough]
  simp

/-! ## Numerals -/

/-- What may stand behind a number: nothing that would go on with it. -/
def Stops (text : List Char) : Prop :=
  ∀ c ∈ text.head?, isDigit c = false ∧ c ≠ '.' ∧ c ≠ 'e' ∧ c ≠ 'E'

theorem stops_nil : Stops [] := by
  simp [Stops]

/-- What may follow a number ends it. -/
theorem stops_cons
    {c : Char}
    (mark : c = ',' ∨ c = ']' ∨ c = '\x7d' ∨ c = '\n')
    (rest : List Char) :
    Stops (c :: rest) := by
  intro d found
  obtain rfl : c = d := by simpa using found
  rcases mark with rfl | rfl | rfl | rfl <;> decide

theorem isDigit_eq_isDigit : isDigit = Char.isDigit := rfl

theorem digitValue?_of_isDigit
    {c : Char}
    (digit : isDigit c = true) :
    Text.digitValue? c = some (c.toNat - '0'.toNat) := by
  have bounds : '0' ≤ c ∧ c ≤ '9' := by simpa [isDigit] using digit
  simp [Text.digitValue?, bounds]

/-- No digit follows where a number ends. -/
theorem digitValue?_of_stops
    {text : List Char}
    (stops : Stops text) :
    text.head?.bind Text.digitValue? = none := by
  cases text with
  | nil =>
      rfl
  | cons c rest =>
      have noDigit := (stops c rfl).1
      have bounds : '0' ≤ c → ¬ c ≤ '9' := by simpa [isDigit] using noDigit
      simpa [Text.digitValue?] using bounds

/-- Digits are read into the number that they spell, if that is in range.  Reading on only raises
the number, so no digit is refused on the way. -/
theorem significandDigits_append
    {digits rest : List Char}
    (areDigits : ∀ c ∈ digits, isDigit c = true)
    (stops : Stops rest)
    {fuel read start : Nat}
    (fits : Nat.ofDigitChars 10 digits start ≤ significandLimit)
    (enough : digits.length < fuel) :
    significandDigits fuel read start (digits ++ rest) =
      .ok ((read + digits.length, Nat.ofDigitChars 10 digits start, true), rest) := by
  induction digits generalizing fuel read start with
  | nil =>
      obtain ⟨fuel, rfl⟩ := Nat.exists_eq_succ_of_ne_zero (Nat.ne_zero_of_lt enough)
      simp [significandDigits, digitValue?_of_stops stops]
  | cons c others inductionHypothesis =>
      obtain ⟨fuel, rfl⟩ := Nat.exists_eq_succ_of_ne_zero (Nat.ne_zero_of_lt enough)
      have value := digitValue?_of_isDigit (areDigits c List.mem_cons_self)
      have next :
          Nat.ofDigitChars 10 (c :: others) start =
            Nat.ofDigitChars 10 others (start * 10 + (c.toNat - '0'.toNat)) := by
        rw [Nat.mul_comm]
        rfl
      rw [next] at fits ⊢
      generalize c.toNat - '0'.toNat = digit at value fits ⊢
      have inRange : start * 10 + digit ≤ significandLimit := by
        refine Nat.le_trans ?_ fits
        rw [Nat.ofDigitChars_eq_ofDigitChars_zero]
        exact Nat.le_trans (Nat.le_mul_of_pos_left _ (Nat.pow_pos (by decide)))
          (Nat.le_add_right _ _)
      have areOthers : ∀ d ∈ others, isDigit d = true := fun d member =>
        areDigits d (List.mem_cons_of_mem c member)
      have later :
          significandDigits fuel (read + 1) (start * 10 + digit) (others ++ rest) = _ :=
        inductionHypothesis areOthers fits (Nat.lt_of_succ_lt_succ enough)
      simp [significandDigits, value, Nat.not_lt.mpr inRange, later, Nat.add_assoc,
        Nat.add_comm 1]

theorem isDigit_of_mem_toDigits
    {n : Nat}
    {c : Char}
    (member : c ∈ Nat.toDigits 10 n) :
    isDigit c = true := by
  rw [isDigit_eq_isDigit]
  exact Nat.isDigit_of_mem_toDigits (by decide) (by decide) member

/-- Only the numeral of zero begins with zero. -/
theorem head_toDigits
    {n : Nat}
    (positive : 0 < n) :
    ∃ c others, Nat.toDigits 10 n = c :: others ∧ c ≠ '0' := by
  induction n using Nat.strongRecOn with
  | ind n inductionHypothesis =>
      by_cases small : n < 10
      · refine ⟨n.digitChar, [], Nat.toDigits_of_lt_base small, ?_⟩
        rw [Ne, Nat.digitChar_eq_zero]
        exact Nat.ne_of_gt positive
      · obtain ⟨c, others, digits, notZero⟩ :=
          inductionHypothesis (n / 10) (by omega) (by omega)
        refine ⟨c, others ++ [(n % 10).digitChar], ?_, notZero⟩
        rw [Nat.toDigits_of_base_le (by decide) (by omega), digits]
        rfl

/-- Where a number ends behind its digits, it is a whole one. -/
theorem afterWhole_of_stops
    {rest : List Char}
    (stops : Stops rest)
    (n : Nat) :
    afterWhole false n rest = .ok (.whole n, rest) := by
  cases rest with
  | nil =>
      simp [afterWhole]
  | cons c others =>
      obtain ⟨_, notPoint, notLower, notUpper⟩ := stops c rfl
      simp only [afterWhole, bind_apply, peek?_apply, ok_bind, List.head?_cons]
      split <;> simp_all

/-- A number is read with a sign in front, as far as the integers of a word go. -/
theorem afterWhole_negative_of_stops
    {rest : List Char}
    (stops : Stops rest)
    {n : Nat}
    (positive : 1 ≤ n)
    (fits : n ≤ Nat.pow 2 63) :
    afterWhole true n rest = .ok (.whole (-n), rest) := by
  cases rest with
  | nil =>
      simp [afterWhole, positive, fits]
  | cons c others =>
      obtain ⟨_, notPoint, notLower, notUpper⟩ := stops c rfl
      simp only [afterWhole, bind_apply, peek?_apply, ok_bind, List.head?_cons]
      split <;> simp_all

/-- The numeral of a number in range is read up to its end. -/
theorem unsignedNumber_toDigits
    {rest : List Char}
    (stops : Stops rest)
    (negative : Bool)
    {n : Nat}
    (fits : n ≤ significandLimit) :
    unsignedNumber negative (Nat.toDigits 10 n ++ rest) = afterWhole negative n rest := by
  rcases Nat.eq_zero_or_pos n with rfl | positive
  · rw [Nat.toDigits_zero]
    cases rest with
    | nil =>
        simp [unsignedNumber]
    | cons c others =>
        simp [unsignedNumber, (stops c rfl).1]
  · obtain ⟨c, others, digits, notZero⟩ := head_toDigits positive
    have member : c ∈ Nat.toDigits 10 n := digits ▸ List.mem_cons_self
    have read :
        significandDigits ((Nat.toDigits 10 n ++ rest).length + 1) 0 0
            (Nat.toDigits 10 n ++ rest) =
          .ok ((0 + (Nat.toDigits 10 n).length, n, true), rest) := by
      have enough : (Nat.toDigits 10 n).length < (Nat.toDigits 10 n ++ rest).length + 1 := by
        simp only [List.length_append]
        omega
      have spelled : Nat.ofDigitChars 10 (Nat.toDigits 10 n) 0 = n :=
        Nat.ofDigitChars_ten_toDigits
      rw [significandDigits_append (fun _ => isDigit_of_mem_toDigits) stops (by omega) enough,
        spelled]
    have first : (Nat.toDigits 10 n ++ rest).head? = some c := by
      rw [digits]
      rfl
    simp [-List.length_append, unsignedNumber, first, notZero, isDigit_of_mem_toDigits member, read]

theorem isGap_of_isDigit
    {c : Char}
    (digit : isDigit c = true) :
    isGap c = false := by
  have noBlank : c ≠ ' ' ∧ c ≠ '\n' ∧ c ≠ '\t' ∧ c ≠ '\r' := by
    refine ⟨?_, ?_, ?_, ?_⟩ <;> rintro rfl <;> exact absurd digit (by decide)
  simp [isGap, noBlank]

/-- A value that begins with a digit is a number. -/
theorem scalar_of_isDigit
    {text : List Char}
    {c : Char}
    (first : text.head? = some c)
    (digit : isDigit c = true) :
    scalar text = unsignedNumber false text := by
  obtain ⟨rest, rfl⟩ := List.head?_eq_some_iff.mp first
  simp only [scalar, bind_apply, peekToken?_cons (isGap_of_isDigit digit), ok_bind]
  split
  case h_8 => simp [digit]
  all_goals exact absurd digit (by decide)

/-- A numeral begins with its sign or with a digit. -/
theorem wholeText_head (n : Int) :
    ∃ c rest, Json.wholeText n = c :: rest ∧ (c = '-' ∧ n < 0 ∨ isDigit c = true ∧ 0 ≤ n) := by
  by_cases negative : n < 0
  · exact ⟨'-', _, if_pos negative, .inl ⟨rfl, negative⟩⟩
  · have spelled : Nat.toDigits 10 n.natAbs ≠ [] := Nat.toDigits_ne_nil
    obtain ⟨c, others, digits⟩ := List.exists_cons_of_ne_nil spelled
    have digit : isDigit c = true := isDigit_of_mem_toDigits (digits ▸ List.mem_cons_self)
    exact ⟨c, others, (if_neg negative).trans digits, .inr ⟨digit, Int.not_lt.mp negative⟩⟩

/-- The numeral of a whole number in range is read back. -/
theorem scalar_wholeText
    {rest : List Char}
    (stops : Stops rest)
    {n : Int}
    (least : -(Int.pow 2 63) ≤ n)
    (greatest : n < Int.pow 2 64) :
    scalar (Json.wholeText n ++ rest) = .ok (.whole n, rest) := by
  by_cases negative : n < 0
  · have fits : n.natAbs ≤ significandLimit := by
      have : significandLimit = 2 ^ 64 - 1 := rfl
      have : Int.pow 2 63 = 2 ^ 63 := rfl
      omega
    have positive : 1 ≤ n.natAbs := by omega
    have word : n.natAbs ≤ Nat.pow 2 63 := by
      have : Int.pow 2 63 = 2 ^ 63 := rfl
      have : Nat.pow 2 63 = 2 ^ 63 := rfl
      omega
    have number : -(n.natAbs : Int) = n := by omega
    have read :
        scalar (Json.wholeText n ++ rest) = .ok (.whole (-(n.natAbs : Int)), rest) := by
      simp [Json.wholeText, negative, scalar, isGap, unsignedNumber_toDigits stops true fits,
        afterWhole_negative_of_stops stops positive word]
    rwa [number] at read
  · have fits : n.natAbs ≤ significandLimit := by
      have : significandLimit = 2 ^ 64 - 1 := rfl
      have : Int.pow 2 64 = 2 ^ 64 := rfl
      omega
    have number : (n.natAbs : Int) = n := by omega
    obtain ⟨c, others, text, ⟨_, below⟩ | ⟨digit, _⟩⟩ := wholeText_head n
    · exact absurd below negative
    have first : (Json.wholeText n ++ rest).head? = some c := by
      rw [text]
      rfl
    rw [scalar_of_isDigit first digit, Json.wholeText, if_neg negative,
      unsignedNumber_toDigits stops false fits, afterWhole_of_stops stops, number]

end Json.Reader

end VerifyPipeline
