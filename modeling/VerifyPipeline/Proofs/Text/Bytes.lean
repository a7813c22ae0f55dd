import Mathlib.Algebra.Group.Nat.Defs

namespace VerifyPipeline

/-!
# The bytes of a text

Different texts have different bytes, and the bytes of texts are in the order of the texts.  A
character is written as a first byte, which tells how many bytes are behind it, and the digits of
its number to the base 64.  So the first bytes of two characters differ in the direction of their
numbers, or as many bytes are behind them, and then the digits decide.
-/

/-- The bytes of a text are listed in their order. -/
theorem toList_loop_eq
    (bytes : ByteArray)
    (start : Nat)
    (before : List UInt8) :
    ByteArray.toList.loop bytes start before = before.reverse ++ bytes.data.toList.drop start := by
  induction start, before using ByteArray.toList.loop.induct bytes with
  | case1 start before inside inductionHypothesis =>
      have bound : start < bytes.data.toList.length := by simpa using inside
      rw [ByteArray.toList.loop, if_pos inside, inductionHypothesis,
        List.drop_eq_getElem_cons bound]
      simp [ByteArray.get!, inside]
  | case2 start before beyond =>
      have bound : bytes.data.toList.length ≤ start := by simpa using beyond
      rw [ByteArray.toList.loop, if_neg beyond, List.drop_eq_nil_of_le bound, List.append_nil]

theorem toList_eq_data (bytes : ByteArray) : bytes.toList = bytes.data.toList := by
  rw [ByteArray.toList, toList_loop_eq]
  rfl

/-- Texts with the same bytes are the same. -/
theorem toList_toUTF8_inj
    {first second : String} :
    first.toUTF8.toList = second.toUTF8.toList ↔ first = second := by
  rw [toList_eq_data, toList_eq_data, Array.toList_inj, ← ByteArray.ext_iff]
  exact String.toByteArray_inj

/-- The bytes of a text are those of its characters. -/
theorem toList_toUTF8 (text : String) :
    text.toUTF8.toList = text.toList.flatMap String.utf8EncodeChar := by
  rw [toList_eq_data, String.toUTF8_eq_toByteArray, ← String.utf8Encode_toList, List.utf8Encode,
    List.toList_data_toByteArray]

namespace Text

/-! ## The bytes of a character -/

/-- The bytes of a character behind its first one: the digits of its number to the base 64. -/
def followingBytes : Nat → Nat → List UInt8
  | 0, _ => []
  | count + 1, n => followingBytes count (n / 64) ++ [.ofNat (n % 64 + 128)]

/-- The least number of a character with so many bytes behind the first one. -/
def leastNumber : Nat → Nat
  | 0 => 0
  | 1 => 0x80
  | 2 => 0x800
  | 3 => 0x10000
  | _ => 0x110000

/-- What the first byte of a character with so many bytes behind it is at least. -/
def leastFirst : Nat → Nat
  | 0 => 0
  | 1 => 192
  | 2 => 224
  | 3 => 240
  | _ => 248

/-- A character is written with so many bytes behind the first one. -/
structure Spans (c : Char) (count : Nat) : Prop where
  few : count ≤ 3
  least : leastNumber count ≤ c.toNat
  most : c.toNat < leastNumber (count + 1)
  first : c.toNat / 64 ^ count + leastFirst count < leastFirst (count + 1)
  bytes :
    String.utf8EncodeChar c =
      .ofNat (c.toNat / 64 ^ count + leastFirst count) :: followingBytes count c.toNat

/-- Every character spans one to four bytes. -/
theorem exists_spans (c : Char) : ∃ count, Spans c count := by
  have bound : c.toNat < 0x110000 := by
    rcases c.valid with small | ⟨_, large⟩
    · exact Nat.lt_trans small (by decide)
    · exact large
  by_cases one : c.toNat ≤ 0x7F
  · refine ⟨0, by decide, Nat.zero_le _, Nat.lt_succ_of_le one, ?_, ?_⟩
    · simp only [leastFirst]
      omega
    · simp [String.utf8EncodeChar, one, leastFirst, followingBytes]
  by_cases two : c.toNat ≤ 0x7FF
  · have digit : c.toNat / 64 % 32 = c.toNat / 64 := by omega
    refine ⟨1, by decide, Nat.lt_of_not_le one, Nat.lt_succ_of_le two, ?_, ?_⟩
    · simp only [leastFirst]
      omega
    · simp [String.utf8EncodeChar, one, two, digit, leastFirst, followingBytes]
  by_cases three : c.toNat ≤ 0xFFFF
  · have digit : c.toNat / 4096 % 16 = c.toNat / 4096 := by omega
    refine ⟨2, by decide, Nat.lt_of_not_le two, Nat.lt_succ_of_le three, ?_, ?_⟩
    · simp only [leastFirst]
      omega
    · simp [String.utf8EncodeChar, one, two, three, digit, leastFirst, followingBytes]
  · have digit : c.toNat / 262144 % 8 = c.toNat / 262144 := by omega
    refine ⟨3, by decide, Nat.lt_of_not_le three, bound, ?_, ?_⟩
    · simp only [leastFirst]
      omega
    · simp [String.utf8EncodeChar, one, two, three, digit, leastFirst, followingBytes,
        Nat.div_div_eq_div_mul]

/-! ## The order of bytes -/

/-- Bytes are ordered by their numbers. -/
theorem ofNat_lt_ofNat
    {n m : Nat}
    (less : n < m)
    (small : m < 256) :
    UInt8.ofNat n < UInt8.ofNat m := by
  simp only [UInt8.lt_iff_toNat_lt, UInt8.toNat_ofNat']
  omega

/-- Of two numbers with as many digits, the smaller one has the smaller digits. -/
theorem cons_followingBytes_lt
    (first : Nat → UInt8)
    {count n m : Nat}
    (less : n < m)
    (leads : n / 64 ^ count < m / 64 ^ count → first (n / 64 ^ count) < first (m / 64 ^ count))
    (rest others : List UInt8) :
    first (n / 64 ^ count) :: (followingBytes count n ++ rest) <
      first (m / 64 ^ count) :: (followingBytes count m ++ others) := by
  induction count generalizing n m rest others with
  | zero =>
      rw [Nat.pow_zero, Nat.div_one, Nat.div_one] at leads ⊢
      exact List.cons_lt_cons_iff.mpr (.inl (leads less))
  | succ count inductionHypothesis =>
      have shifted (number : Nat) : number / 64 ^ (count + 1) = number / 64 / 64 ^ count := by
        rw [Nat.pow_succ', Nat.div_div_eq_div_mul]
      rw [shifted, shifted] at leads ⊢
      simp only [followingBytes, List.append_assoc]
      have digits : n / 64 < m / 64 ∨ n / 64 = m / 64 ∧ n % 64 < m % 64 := by omega
      rcases digits with earlier | ⟨same, last⟩
      · exact inductionHypothesis earlier leads _ _
      · have lastByte : UInt8.ofNat (n % 64 + 128) < UInt8.ofNat (m % 64 + 128) :=
          ofNat_lt_ofNat (by omega) (by omega)
        rw [same]
        refine List.cons_lt_cons_iff.mpr (.inr ⟨rfl, List.append_left_lt ?_⟩)
        exact List.cons_lt_cons_iff.mpr (.inl lastByte)

/-- A character before another one has bytes before those of the other, whatever is behind them. -/
theorem utf8EncodeChar_append_lt
    {c d : Char}
    (less : c < d)
    (rest others : List UInt8) :
    String.utf8EncodeChar c ++ rest < String.utf8EncodeChar d ++ others := by
  have numbers : c.toNat < d.toNat := UInt32.lt_iff_toNat_lt.mp (Char.lt_def.mp less)
  obtain ⟨count, first⟩ := exists_spans c
  obtain ⟨number, second⟩ := exists_spans d
  have small : ∀ count ≤ 3, leastFirst (count + 1) ≤ 256 := by decide
  have below := Nat.lt_of_lt_of_le second.first (small number second.few)
  rw [first.bytes, second.bytes, List.cons_append, List.cons_append]
  rcases Nat.lt_trichotomy count number with fewer | rfl | more
  · have apart : ∀ number ≤ 3, ∀ count < number, leastFirst (count + 1) ≤ leastFirst number := by
      decide
    have firstBytes :
        c.toNat / 64 ^ count + leastFirst count < d.toNat / 64 ^ number + leastFirst number :=
      calc c.toNat / 64 ^ count + leastFirst count
        _ < leastFirst (count + 1) := first.first
        _ ≤ leastFirst number := apart number second.few count fewer
        _ ≤ d.toNat / 64 ^ number + leastFirst number := Nat.le_add_left _ _
    exact List.cons_lt_cons_iff.mpr (.inl (ofNat_lt_ofNat firstBytes below))
  · apply cons_followingBytes_lt (fun quotient => .ofNat (quotient + leastFirst count)) numbers
    intro quotients
    exact ofNat_lt_ofNat (Nat.add_lt_add_right quotients _) below
  · have apart : ∀ count ≤ 3, ∀ number < count, leastNumber (number + 1) ≤ leastNumber count := by
      decide
    have greater : d.toNat < c.toNat :=
      calc d.toNat
        _ < leastNumber (number + 1) := second.most
        _ ≤ leastNumber count := apart count first.few number more
        _ ≤ c.toNat := first.least
    exact absurd numbers (Nat.lt_asymm greater)

/-- Texts in order have their bytes in order. -/
theorem flatMap_utf8EncodeChar_lt
    {first second : List Char}
    (less : first < second) :
    first.flatMap String.utf8EncodeChar < second.flatMap String.utf8EncodeChar := by
  induction less with
  | @nil c rest =>
      obtain ⟨_, spans⟩ := exists_spans c
      rw [List.flatMap_cons, spans.bytes]
      exact List.nil_lt_cons _ _
  | cons _ inductionHypothesis =>
      rw [List.flatMap_cons, List.flatMap_cons]
      exact List.append_left_lt inductionHypothesis
  | rel earlier =>
      exact utf8EncodeChar_append_lt earlier _ _

end Text

/-- Texts are in the order of their bytes. -/
theorem toList_toUTF8_lt
    {first second : String} :
    first.toUTF8.toList < second.toUTF8.toList ↔ first < second := by
  have ascends {first second : String} (less : first < second) :
      first.toUTF8.toList < second.toUTF8.toList := by
    rw [toList_toUTF8, toList_toUTF8]
    exact Text.flatMap_utf8EncodeChar_lt (String.lt_iff.mp less)
  constructor
  · intro less
    apply String.not_le.mp
    intro notLess
    by_cases same : first = second
    · rw [same] at less
      exact List.lt_irrefl _ less
    · have greater : second < first := by
        apply Decidable.byContradiction
        intro notGreater
        exact same (String.le_antisymm (String.not_lt.mp notGreater) notLess)
      exact List.lt_asymm less (ascends greater)
  · exact ascends

end VerifyPipeline
