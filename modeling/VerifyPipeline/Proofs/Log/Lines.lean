import VerifyPipeline.Log.Emitter
import VerifyPipeline.Proofs.Log.ReadBack

namespace VerifyPipeline

/-!
# Entries as physical lines

An entry takes exactly one physical line, whatever is in its texts, because control characters are
written as escapes.  So a log is checked entry by entry.
-/

/-! ## No control characters -/

namespace Json

/-- Characters that neither end a line nor control anything else. -/
def Printable (text : List Char) : Prop := ∀ c ∈ text, 0x20 ≤ c.toNat

theorem printable_hexDigit
    {n : Nat}
    (digit : n < 16) :
    0x20 ≤ (Text.hexDigit n).toNat := by
  have all : ∀ n < 16, 0x20 ≤ (Text.hexDigit n).toNat := by decide
  exact all n digit

/-- No control character is left when a character has been escaped. -/
theorem printable_escaped (c : Char) : Printable (escaped c) := by
  unfold escaped
  split
  case h_8 =>
    split
    case isTrue control =>
      have high := printable_hexDigit (show c.toNat / 16 < 16 by omega)
      have low := printable_hexDigit (Nat.mod_lt c.toNat (by decide : 0 < 16))
      simp [Printable, high, low]
    case isFalse printable =>
      simpa [Printable] using Nat.not_lt.mp printable
  all_goals simp [Printable]

theorem printable_stringText (text : String) : Printable (stringText text) := by
  intro c member
  simp only [stringText, List.cons_append, List.mem_cons, List.mem_append, List.mem_flatMap,
    List.not_mem_nil, or_false] at member
  rcases member with rfl | ⟨d, _, member⟩ | rfl
  · decide
  · exact printable_escaped d c member
  · decide

theorem printable_wholeText (n : Int) : Printable (wholeText n) := by
  have digits : Printable (Nat.toDigits 10 n.natAbs) := by
    intro c member
    have digit := Reader.isDigit_of_mem_toDigits member
    simp only [Reader.isDigit, Bool.and_eq_true, decide_eq_true_eq] at digit
    have least : '0'.toNat ≤ c.toNat := UInt32.le_iff_toNat_le.mp digit.1
    exact Nat.le_trans (by decide) least
  unfold wholeText
  split
  · exact List.forall_mem_cons.mpr ⟨by decide, digits⟩
  · exact digits

/-- Items are written in printable characters if each of them is. -/
theorem printable_writeItems
    {items : List Json}
    (printable : ∀ item ∈ items, ∀ level, Printable (item.write .compact level))
    (level : Nat) :
    Printable (writeItems .compact level items) := by
  induction items with
  | nil =>
      simp [writeItems, Layout.lineBreak, Printable]
  | cons item others inductionHypothesis =>
      rw [List.forall_mem_cons] at printable
      have first := printable.1 (level + 1)
      have later := inductionHypothesis printable.2
      simp only [Printable, writeItems, Layout.lineBreak, List.cons_append, List.nil_append,
        List.forall_mem_cons, List.forall_mem_append] at first later ⊢
      exact ⟨by decide, first, later⟩

/-- The members of an object are written in printable characters, if their values are. -/
theorem printable_writeMembers
    {members : List (String × Json)}
    (printable : ∀ member ∈ members, ∀ level, Printable (member.2.write .compact level))
    (level : Nat) :
    Printable (writeMembers .compact level members) := by
  induction members with
  | nil =>
      simp [writeMembers, Layout.lineBreak, Printable]
  | cons member others inductionHypothesis =>
      rw [List.forall_mem_cons] at printable
      have key := printable_stringText member.1
      have first := printable.1 (level + 1)
      have later := inductionHypothesis printable.2
      simp only [Printable, writeMembers, Layout.lineBreak, Layout.colon, List.cons_append,
        List.nil_append, List.append_assoc, List.forall_mem_cons, List.forall_mem_append]
        at key first later ⊢
      exact ⟨by decide, key, by decide, first, later⟩

/-- The text of a value on one line has no control characters. -/
theorem Exact.printable_write
    {value : Json}
    (exact : value.Exact)
    (level : Nat) :
    Printable (value.write .compact level) := by
  induction exact generalizing level with
  | null =>
      simp [write, Printable]
  | bool b =>
      cases b <;> simp [write, Printable]
  | whole _ _ =>
      rw [write]
      exact printable_wholeText _
  | string text =>
      rw [write]
      exact printable_stringText text
  | @array items exact inductionHypothesis =>
      cases items with
      | nil =>
          simp [write, Printable]
      | cons item others =>
          rw [List.forall_mem_cons] at inductionHypothesis
          have first := inductionHypothesis.1 (level + 1)
          have later := printable_writeItems inductionHypothesis.2 level
          simp only [Printable, write_array_cons, Layout.lineBreak, List.nil_append,
            List.forall_mem_cons, List.forall_mem_append] at first later ⊢
          exact ⟨by decide, first, later⟩
  | @object members exact inductionHypothesis =>
      cases members with
      | nil =>
          simp [write, Printable]
      | cons member others =>
          rw [List.forall_mem_cons] at inductionHypothesis
          have key := printable_stringText member.1
          have first := inductionHypothesis.1 (level + 1)
          have later := printable_writeMembers inductionHypothesis.2 level
          simp only [Printable, write_object_cons, Layout.lineBreak, Layout.colon,
            List.cons_append, List.nil_append, List.forall_mem_cons, List.forall_mem_append]
            at key first later ⊢
          exact ⟨by decide, key, by decide, first, later⟩

/-- The text of an object begins and ends with its braces. -/
theorem write_object_ends
    (layout : Layout)
    (members : List (String × Json))
    (level : Nat) :
    ∃ between, (object members).write layout level = '\x7b' :: between ++ ['\x7d'] := by
  have closed (others : List (String × Json)) :
      ∃ before, writeMembers layout level others = before ++ ['\x7d'] := by
    induction others with
    | nil =>
        exact ⟨layout.lineBreak level, by rw [writeMembers]⟩
    | cons member others inductionHypothesis =>
        obtain ⟨before, closed⟩ := inductionHypothesis
        rw [writeMembers, closed, ← List.append_assoc]
        exact ⟨_, rfl⟩
  cases members with
  | nil =>
      exact ⟨[], by rw [write]; rfl⟩
  | cons member others =>
      obtain ⟨before, closed⟩ := closed others
      rw [write_object_cons, closed]
      simp only [← List.append_assoc]
      exact ⟨_, rfl⟩

end Json

namespace Text

/-- A line without line ends is the first line of a text that goes on with a line feed. -/
theorem lines_append
    {line : List Char}
    (unbroken : '\n' ∉ line)
    (unreturned : '\r' ∉ line)
    (rest : List Char) :
    lines (line ++ '\n' :: rest) = line :: lines rest := by
  induction line with
  | nil =>
      rw [List.nil_append, lines]
  | cons c others inductionHypothesis =>
      rw [List.mem_cons, not_or] at unbroken unreturned
      have later := inductionHypothesis unbroken.2 unreturned.2
      rw [List.cons_append, lines, later]
      · exact fun rest same _ => unreturned.1 same.symm
      · exact fun same => unbroken.1 same.symm

/-- Lines without line ends are the lines of their text. -/
theorem lines_ofLines
    {content : List String}
    (unbroken : ∀ line ∈ content, '\n' ∉ line.toList ∧ '\r' ∉ line.toList) :
    lines (ofLines content).toList = content.map String.toList := by
  induction content with
  | nil =>
      rfl
  | cons line others inductionHypothesis =>
      rw [List.forall_mem_cons] at unbroken
      have text :
          (ofLines (line :: others)).toList = line.toList ++ '\n' :: (ofLines others).toList := by
        simp [ofLines]
      rw [text, lines_append unbroken.1.1 unbroken.1.2, inductionHypothesis unbroken.2]
      rfl

/-- A text that begins and ends in other characters than blanks is trimmed to itself. -/
theorem trimChars_of_ends
    {first last : Char}
    {between : List Char}
    (start : isBlank first = false)
    (stop : isBlank last = false) :
    trimChars (first :: between ++ [last]) = first :: between ++ [last] := by
  simp [trimChars, trimEnd, start, stop]

end Text

/-! ## The lines of entries -/

namespace LogEntry

/-- No entry breaks its line. -/
theorem Readable.unbroken
    {entry : LogEntry}
    (readable : entry.Readable) :
    '\n' ∉ entry.line.toList ∧ '\r' ∉ entry.line.toList := by
  have printable : Json.Printable entry.line.toList := by
    rw [line, Json.compact, String.toList_ofList]
    exact readable.exact_toJson.printable_write 0
  exact ⟨fun found => absurd (printable _ found) (by decide),
    fun found => absurd (printable _ found) (by decide)⟩

/-- Nothing is trimmed from the line of an entry, which is not blank. -/
theorem trimChars_line (entry : LogEntry) :
    ∃ first others,
      entry.line.toList = first :: others ∧
        Text.trimChars (first :: others) = first :: others := by
  obtain ⟨members, written⟩ : ∃ members, entry.toJson = .object members := ⟨_, rfl⟩
  obtain ⟨between, text⟩ := Json.write_object_ends .compact members 0
  refine ⟨'\x7b', between ++ ['\x7d'], ?_, Text.trimChars_of_ends rfl rfl⟩
  rw [line, Json.compact, String.toList_ofList, written, text]
  rfl

/-- The errors of entries on lines that are numbered from a given one on. -/
def errorsFrom : Nat → List LogEntry → List SchemaError
  | _, [] => []
  | number, entry :: rest =>
    entry.faults.map (SchemaError.mk number) ++ errorsFrom (number + 1) rest

/-- The line of an entry has the faults of the entry. -/
theorem ofLine_line
    {entry : LogEntry}
    (readable : entry.Readable)
    (number : Nat) :
    LogCheck.ofLine entry.line.toList number = ⟨1, entry.faults.map (SchemaError.mk number)⟩ := by
  obtain ⟨first, others, text, trimmed⟩ := entry.trimChars_line
  have checked := checkText_line readable
  rw [text] at checked ⊢
  simp only [LogCheck.ofLine, trimmed, LogSchema.checkLine, checked]
  cases entry.faults <;> rfl

/-- The lines of entries have the errors of the entries. -/
theorem ofLines_line
    {entries : List LogEntry}
    (readable : ∀ entry ∈ entries, entry.Readable)
    (number : Nat) :
    LogCheck.ofLines (entries.map fun entry => entry.line.toList) number =
      ⟨entries.length, errorsFrom number entries⟩ := by
  induction entries generalizing number with
  | nil =>
      rfl
  | cons entry others inductionHypothesis =>
      rw [List.forall_mem_cons] at readable
      rw [List.map_cons, LogCheck.ofLines, ofLine_line readable.1,
        inductionHypothesis readable.2, LogCheck.append, List.length_cons, Nat.add_comm 1]
      rfl

/-- A log has a physical line for each entry. -/
theorem lines_ofLines_line
    {entries : List LogEntry}
    (readable : ∀ entry ∈ entries, entry.Readable) :
    Text.lines (Text.ofLines (entries.map line)).toList =
      entries.map fun entry => entry.line.toList := by
  rw [Text.lines_ofLines, List.map_map]
  · rfl
  · exact List.forall_mem_map.mpr fun entry member => (readable entry member).unbroken

/-- A log is checked entry by entry. -/
theorem ofText_ofLines_line
    {entries : List LogEntry}
    (readable : ∀ entry ∈ entries, entry.Readable) :
    LogCheck.ofText (Text.ofLines (entries.map line)).toList =
      ⟨entries.length, errorsFrom 1 entries⟩ := by
  rw [LogCheck.ofText, lines_ofLines_line readable, ofLines_line readable]

end LogEntry

end VerifyPipeline
