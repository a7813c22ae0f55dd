import VerifyPipeline.Log.Schema
import VerifyPipeline.Proofs.Text.Words

namespace VerifyPipeline

/-!
# Checks of joined logs

A text that is empty or ends with a line feed leaves no line open, so whatever follows it begins a
line of its own.  The check of a log is therefore put together from the checks of its parts, and a
blank line only moves the lines behind it.
-/

/-! ## Lines of joined texts -/

namespace Text

/-- No line of a text is left open. -/
def Ended (text : List Char) : Prop := text = [] ∨ text.getLast? = some '\n'

instance (text : List Char) : Decidable (Ended text) :=
  inferInstanceAs (Decidable (text = [] ∨ text.getLast? = some '\n'))

theorem Ended.tail
    {c : Char}
    {rest : List Char}
    (ended : Ended (c :: rest)) :
    Ended rest := by
  cases rest with
  | nil =>
      exact .inl rfl
  | cons d more =>
      rcases ended with absent | last
      · contradiction
      · rw [List.getLast?_cons_cons] at last
        exact .inr last

/-- Texts that leave no line open leave none open together. -/
theorem Ended.append
    {first second : List Char}
    (ended : Ended first)
    (alsoEnded : Ended second) :
    Ended (first ++ second) := by
  rcases alsoEnded with rfl | last
  · rwa [List.append_nil]
  · refine .inr ?_
    rw [List.getLast?_append, last]
    rfl

theorem lines_ne_nil
    {c : Char}
    {rest : List Char} :
    lines (c :: rest) ≠ [] := by
  unfold lines
  split
  · contradiction
  · simp
  · simp
  · split <;> simp

/-- A character that ends no line is followed by a line if no line is left open. -/
theorem Ended.lines_tail_ne_nil
    {c : Char}
    {rest : List Char}
    (ended : Ended (c :: rest))
    (notEnd : c ≠ '\n') :
    lines rest ≠ [] := by
  cases rest with
  | nil =>
      rcases ended with absent | last
      · contradiction
      · exact absurd (Option.some.inj last) notEnd
  | cons d more =>
      exact lines_ne_nil

/-- A character that ends no line belongs to the first line. -/
theorem lines_cons_of_begun
    {c : Char}
    {rest line : List Char}
    {others : List (List Char)}
    (apart : ∀ more, c = '\r' → rest = '\n' :: more → False)
    (notEnd : c ≠ '\n')
    (begun : lines rest = line :: others) :
    lines (c :: rest) = (c :: line) :: others := by
  rw [lines, begun]
  · exact apart
  · exact notEnd

/-- The lines of a text that leaves no line open are the first lines of every text that goes on from
there.  A line end that begins in front of the border would lie within the first text. -/
theorem lines_append_of_ended
    {first : List Char}
    (ended : Ended first)
    (second : List Char) :
    lines (first ++ second) = lines first ++ lines second := by
  induction first using lines.induct with
  | case1 =>
      rfl
  | case2 rest inductionHypothesis =>
      have later := inductionHypothesis ended.tail.tail
      simp only [List.cons_append, lines, later]
  | case3 rest inductionHypothesis =>
      have later := inductionHypothesis ended.tail
      simp only [List.cons_append, lines, later]
  | case4 c rest apart notEnd none inductionHypothesis =>
      exact absurd none (ended.lines_tail_ne_nil notEnd)
  | case5 c rest apart notEnd line others begun inductionHypothesis =>
      have later := inductionHypothesis ended.tail
      cases rest with
      | nil =>
          contradiction
      | cons d more =>
          have apartStill :
              ∀ rest, c = '\r' → d :: more ++ second = '\n' :: rest → False := by
            intro rest isReturn same
            obtain ⟨rfl, _⟩ := List.cons.inj same
            exact apart more isReturn rfl
          have first := lines_cons_of_begun apart notEnd begun
          rw [begun, List.cons_append] at later
          rw [first, List.cons_append, lines_cons_of_begun apartStill notEnd later]
          rfl

/-- A text that leaves no line open has as many lines as line feeds. -/
theorem length_lines_of_ended
    {text : List Char}
    (ended : Ended text) :
    (lines text).length = text.count '\n' := by
  induction text using lines.induct with
  | case1 =>
      rfl
  | case2 rest inductionHypothesis =>
      have later := inductionHypothesis ended.tail.tail
      simp [lines, later]
  | case3 rest inductionHypothesis =>
      have later := inductionHypothesis ended.tail
      simp [lines, later]
  | case4 c rest apart notEnd none inductionHypothesis =>
      exact absurd none (ended.lines_tail_ne_nil notEnd)
  | case5 c rest apart notEnd line others begun inductionHypothesis =>
      have later := inductionHypothesis ended.tail
      have joined := lines_cons_of_begun apart notEnd begun
      rw [begun] at later
      rw [joined, List.count_cons_of_ne notEnd, ← later]
      rfl

/-- A line holds only characters of the text. -/
theorem subset_of_mem_lines
    {text line : List Char}
    (member : line ∈ lines text) :
    line ⊆ text := by
  induction text using lines.induct generalizing line with
  | case1 =>
      contradiction
  | case2 rest inductionHypothesis =>
      rw [lines] at member
      rcases List.mem_cons.mp member with rfl | later
      · exact List.nil_subset _
      · exact fun c inside => .tail _ (.tail _ (inductionHypothesis later inside))
  | case3 rest inductionHypothesis =>
      rw [lines] at member
      rcases List.mem_cons.mp member with rfl | later
      · exact List.nil_subset _
      · exact fun c inside => .tail _ (inductionHypothesis later inside)
  | case4 c rest apart notEnd none inductionHypothesis =>
      rw [lines, none] at member
      · obtain rfl := List.mem_singleton.mp member
        exact List.cons_subset_cons c (List.nil_subset rest)
      · exact apart
      · exact notEnd
  | case5 c rest apart notEnd first others begun inductionHypothesis =>
      rw [begun] at inductionHypothesis
      rw [lines_cons_of_begun apart notEnd begun] at member
      rcases List.mem_cons.mp member with rfl | later
      · exact List.cons_subset_cons c (inductionHypothesis List.mem_cons_self)
      · exact fun d inside => .tail _ (inductionHypothesis (.tail _ later) inside)

end Text

/-! ## One line -/

namespace LogSchema

/-- The faults of a line; none if it holds an entry. -/
def lineFaults (text : List Char) : List SchemaFault :=
  match checkText text with
  | .ok _ => []
  | .error found => found

/-- The text is accepted as a line of its own, under whatever number. -/
def Accepts (text : List Char) : Prop := ∀ number, ∃ entry, checkLine text number = .ok entry

/-- The text is refused as a line of its own, under whatever number. -/
def Refuses (text : List Char) : Prop := ∀ number, ∃ errors, checkLine text number = .error errors

/-- A line that is refused has a fault. -/
theorem ne_nil_of_checkText
    {text : List Char}
    {found : List SchemaFault}
    (checked : checkText text = .error found) :
    found ≠ [] := by
  unfold checkText at checked
  split at checked
  · exact Except.error.inj checked ▸ List.cons_ne_nil _ _
  · split at checked
    · split at checked
      · split at checked
        · contradiction
        · exact Except.error.inj checked ▸ List.cons_ne_nil _ _
      · rename_i faulty
        obtain rfl := Except.error.inj checked
        exact faulty
    · exact Except.error.inj checked ▸ List.cons_ne_nil _ _

/-- A text is accepted as a line exactly if it has no faults. -/
theorem accepts_iff {text : List Char} : Accepts text ↔ lineFaults text = [] := by
  unfold Accepts lineFaults
  simp only [checkLine]
  cases checked : checkText text with
  | ok entry =>
      simp
  | error found =>
      simpa using ne_nil_of_checkText checked

/-- A text is refused exactly if one of its lines has a fault. -/
theorem refuses_iff {text : List Char} : Refuses text ↔ lineFaults text ≠ [] := by
  unfold Refuses lineFaults
  simp only [checkLine]
  cases checked : checkText text with
  | ok entry =>
      simp
  | error found =>
      simpa using ne_nil_of_checkText checked

end LogSchema

/-- The error on a line that comes so many lines later. -/
def SchemaError.moved (count : Nat) (error : SchemaError) : SchemaError :=
  { error with line := error.line + count }

/-- The error when so many lines have come in behind the first ones. -/
def SchemaError.spread (kept count : Nat) (error : SchemaError) : SchemaError :=
  if kept < error.line then error.moved count else error

namespace LogCheck

/-- The check of lines that come so many lines later. -/
def moved (count : Nat) (check : LogCheck) : LogCheck :=
  { check with errors := check.errors.map (SchemaError.moved count) }

/-- The check when so many blank lines have come in behind the first ones. -/
def spread (kept count : Nat) (check : LogCheck) : LogCheck :=
  { check with errors := check.errors.map (SchemaError.spread kept count) }

/-- The faults that a physical line is reported for. -/
def faultsOf (line : List Char) : List SchemaFault :=
  if Text.trimChars line = [] then [] else LogSchema.lineFaults (Text.trimChars line)

/-- What is found in a line depends on its faults, and its number is that of each error. -/
theorem ofLine_eq
    (line : List Char)
    (number : Nat) :
    ofLine line number =
      ⟨if Text.trimChars line = [] then 0 else 1, (faultsOf line).map (SchemaError.mk number)⟩ := by
  unfold ofLine faultsOf LogSchema.lineFaults LogSchema.checkLine
  cases Text.trimChars line with
  | nil =>
      rfl
  | cons c rest =>
      simp only [reduceCtorEq, ↓reduceIte]
      cases LogSchema.checkText (c :: rest) <;> rfl

/-- A line that stands further down has the same errors further down. -/
theorem ofLine_add
    (line : List Char)
    (number count : Nat) :
    ofLine line (number + count) = (ofLine line number).moved count := by
  simp only [ofLine_eq, moved, List.map_map]
  rfl

/-! ## Many lines -/

/-- Findings are put together in any grouping. -/
theorem append_assoc (first second third : LogCheck) :
    (first.append second).append third = first.append (second.append third) := by
  simp only [append, Nat.add_assoc, List.append_assoc]

theorem empty_append (check : LogCheck) : empty.append check = check := by
  simp only [append, empty, Nat.zero_add, List.nil_append]

/-- Moving findings down moves each part of them. -/
theorem moved_append
    (count : Nat)
    (first second : LogCheck) :
    (first.append second).moved count = (first.moved count).append (second.moved count) := by
  simp only [append, moved, List.map_append]

/-- Blank lines between findings move those behind them. -/
theorem spread_append
    (kept count : Nat)
    (first second : LogCheck) :
    (first.append second).spread kept count =
      (first.spread kept count).append (second.spread kept count) := by
  simp only [append, spread, List.map_append]

/-- Lines that stand further down have the same errors further down. -/
theorem ofLines_add
    (lines : List (List Char))
    (number count : Nat) :
    ofLines lines (number + count) = (ofLines lines number).moved count := by
  induction lines generalizing number with
  | nil =>
      rfl
  | cons line others inductionHypothesis =>
      have later := inductionHypothesis (number + 1)
      rw [Nat.add_right_comm] at later
      rw [ofLines, ofLines, ofLine_add, later, moved_append]

/-- The findings in lines are those in the first ones and those in the rest. -/
theorem ofLines_append
    (first second : List (List Char))
    (number : Nat) :
    ofLines (first ++ second) number =
      (ofLines first number).append (ofLines second (number + first.length)) := by
  induction first generalizing number with
  | nil =>
      exact (empty_append _).symm
  | cons line others inductionHypothesis =>
      rw [List.cons_append, ofLines, ofLines, inductionHypothesis, append_assoc, List.length_cons,
        Nat.add_assoc, Nat.add_comm 1]

/-- There is nothing to be found in blank lines. -/
theorem ofLines_of_blank
    {lines : List (List Char)}
    (blank : ∀ line ∈ lines, Text.trimChars line = [])
    (number : Nat) :
    ofLines lines number = empty := by
  induction lines generalizing number with
  | nil =>
      rfl
  | cons line others inductionHypothesis =>
      obtain ⟨first, later⟩ := List.forall_mem_cons.mp blank
      rw [ofLines, inductionHypothesis later, ofLine_eq, faultsOf, if_pos first, if_pos first]
      rfl

/-- The errors are those of the lines, each under the number of its line. -/
theorem mem_errors_ofLines_iff
    {lines : List (List Char)}
    {number : Nat}
    {error : SchemaError} :
    error ∈ (ofLines lines number).errors ↔
      ∃ index line,
        lines[index]? = some line ∧ error.line = number + index ∧ error.fault ∈ faultsOf line := by
  induction lines generalizing number with
  | nil =>
      simp [ofLines, empty]
  | cons line others inductionHypothesis =>
      have first : error ∈ (ofLine line number).errors ↔
          error.line = number ∧ error.fault ∈ faultsOf line := by
        rw [ofLine_eq, List.mem_map]
        constructor
        · rintro ⟨fault, member, rfl⟩
          exact ⟨rfl, member⟩
        · rintro ⟨rfl, member⟩
          exact ⟨error.fault, member, rfl⟩
      rw [ofLines, append, List.mem_append, first, inductionHypothesis]
      constructor
      · rintro (⟨isLine, fault⟩ | ⟨index, other, found, isLine, fault⟩)
        · exact ⟨0, line, rfl, isLine, fault⟩
        · exact ⟨index + 1, other, found, by omega, fault⟩
      · rintro ⟨index, other, found, isLine, fault⟩
        cases index with
        | zero =>
            obtain rfl := Option.some.inj found
            exact .inl ⟨isLine, fault⟩
        | succ index =>
            exact .inr ⟨index, other, found, by omega, fault⟩

/-- The errors in lines are at those lines. -/
theorem line_bounds
    {lines : List (List Char)}
    {number : Nat}
    {error : SchemaError}
    (reported : error ∈ (ofLines lines number).errors) :
    number ≤ error.line ∧ error.line < number + lines.length := by
  obtain ⟨index, line, found, isLine, _⟩ := mem_errors_ofLines_iff.mp reported
  have bound := (List.getElem?_eq_some_iff.mp found).1
  omega

/-- Only lines that are not blank are counted. -/
theorem lines_ofLines
    (lines : List (List Char))
    (number : Nat) :
    (ofLines lines number).lines = lines.countP fun line => Text.trimChars line ≠ [] := by
  induction lines generalizing number with
  | nil =>
      rfl
  | cons line others inductionHypothesis =>
      rw [ofLines, append, inductionHypothesis, ofLine_eq, List.countP_cons, Nat.add_comm]
      by_cases blank : Text.trimChars line = [] <;> simp [blank]

/-- Blank lines that come in move the errors on the lines behind them, and nothing else. -/
theorem ofLines_insert
    {blanks : List (List Char)}
    (blank : ∀ line ∈ blanks, Text.trimChars line = [])
    (front back : List (List Char)) :
    ofLines (front ++ blanks ++ back) 1 =
      (ofLines (front ++ back) 1).spread front.length blanks.length := by
  have kept : (ofLines front 1).spread front.length blanks.length = ofLines front 1 := by
    refine congrArg (LogCheck.mk _) ?_
    refine (List.map_congr_left fun error reported => ?_).trans (List.map_id _)
    have bounds := line_bounds reported
    exact if_neg (by omega)
  have behind :
      (ofLines back (1 + front.length)).spread front.length blanks.length =
        (ofLines back (1 + front.length)).moved blanks.length := by
    refine congrArg (LogCheck.mk _) (List.map_congr_left fun error reported => ?_)
    have bounds := line_bounds reported
    exact if_pos (by omega)
  rw [List.append_assoc, ofLines_append, ofLines_append blanks, ofLines_of_blank blank,
    empty_append, ofLines_append, spread_append, kept, behind, ofLines_add]

/-! ## Whole logs -/

/-- What the check of a log says about its physical lines. -/
structure Judges (check : LogCheck) (lines : List (List Char)) : Prop where
  counted : check.lines = lines.countP fun line => Text.trimChars line ≠ []
  /-- An error is one of those that the line of its number, trimmed, is refused for. -/
  reported :
    ∀ error,
      error ∈ check.errors ↔
        ∃ index line errors,
          error.line = index + 1 ∧
            lines[index]? = some line ∧
            Text.trimChars line ≠ [] ∧
            LogSchema.checkLine (Text.trimChars line) error.line = .error errors ∧
            error ∈ errors
  located :
    ∀ error ∈ check.errors,
      ∃ index line,
        error.line = index + 1 ∧
          lines[index]? = some line ∧ LogSchema.Refuses (Text.trimChars line)
  valid :
    check.isValid = true ↔
      ∀ line ∈ lines, Text.trimChars line ≠ [] → LogSchema.Accepts (Text.trimChars line)

/-- The faults of a line are what its errors are about. -/
theorem mem_faultsOf_iff
    {line : List Char}
    {error : SchemaError} :
    error.fault ∈ faultsOf line ↔
      Text.trimChars line ≠ [] ∧
        ∃ errors,
          LogSchema.checkLine (Text.trimChars line) error.line = .error errors ∧
            error ∈ errors := by
  unfold faultsOf LogSchema.lineFaults LogSchema.checkLine
  by_cases blank : Text.trimChars line = []
  · simp [blank]
  · simp only [blank, ↓reduceIte, ne_eq, not_false_eq_true, true_and]
    cases LogSchema.checkText (Text.trimChars line) with
    | ok entry =>
        simp
    | error found =>
        simp only [Except.error.injEq, exists_eq_left', List.mem_map]
        constructor
        · intro member
          exact ⟨error.fault, member, rfl⟩
        · rintro ⟨fault, member, same⟩
          exact same ▸ member

/-- A text is judged line by line. -/
theorem judges_ofText (content : List Char) :
    (ofText content).Judges (Text.lines content) where
  counted := lines_ofLines _ 1
  reported := by
    intro error
    rw [ofText, mem_errors_ofLines_iff]
    constructor
    · rintro ⟨index, line, found, isLine, fault⟩
      obtain ⟨present, errors, refused, member⟩ := mem_faultsOf_iff.mp fault
      exact ⟨index, line, errors, by omega, found, present, refused, member⟩
    · rintro ⟨index, line, errors, isLine, found, present, refused, member⟩
      exact ⟨index, line, found, by omega, mem_faultsOf_iff.mpr ⟨present, errors, refused, member⟩⟩
  located := by
    intro error member
    obtain ⟨index, line, found, isLine, fault⟩ := mem_errors_ofLines_iff.mp member
    refine ⟨index, line, by omega, found, LogSchema.refuses_iff.mpr ?_⟩
    unfold faultsOf at fault
    split at fault
    · contradiction
    · exact List.ne_nil_of_mem fault
  valid := by
    have silent :
        (ofText content).isValid = true ↔ ∀ line ∈ Text.lines content, faultsOf line = [] := by
      rw [isValid, List.isEmpty_iff, List.eq_nil_iff_forall_not_mem]
      constructor
      · intro none line member
        obtain ⟨index, found⟩ := List.getElem?_of_mem member
        refine List.eq_nil_iff_forall_not_mem.mpr fun fault isFault => ?_
        exact none ⟨1 + index, fault⟩
          (mem_errors_ofLines_iff.mpr ⟨index, line, found, rfl, isFault⟩)
      · intro none error reported
        obtain ⟨index, line, found, _, isFault⟩ := mem_errors_ofLines_iff.mp reported
        rw [none line (List.mem_of_getElem? found)] at isFault
        contradiction
    rw [silent]
    refine forall₂_congr fun line _ => ?_
    rw [LogSchema.accepts_iff, faultsOf]
    split <;> simp [*]

/-- A text of blanks has blank lines. -/
theorem trimChars_of_mem_lines
    {blanks line : List Char}
    (blank : ∀ c ∈ blanks, Text.isBlank c = true)
    (member : line ∈ Text.lines blanks) :
    Text.trimChars line = [] :=
  Text.trimChars_eq_nil_of_blank fun c inside => blank c (Text.subset_of_mem_lines member inside)

/--
The check of a log is put together from the checks of its parts: the lines are
counted together, and the errors of the second part come behind those of the
first one, moved by its line feeds.  So blank lines move the errors on the lines
behind them and change nothing else, every error is about the line of its
number, and a log is valid exactly if each of its lines that are not blank is.
-/
theorem ofText_joined
    {first : List Char}
    (ended : Text.Ended first)
    (second : List Char) :
    ofText (first ++ second) =
        (ofText first).append ((ofText second).moved (first.count '\n')) ∧
      (∀ blanks,
        Text.Ended blanks →
          (∀ c ∈ blanks, Text.isBlank c = true) →
            ofText (first ++ blanks ++ second) =
              (ofText (first ++ second)).spread (first.count '\n') (blanks.count '\n')) ∧
      (∀ content spaced front blanks back,
        Text.lines content = front ++ back →
          Text.lines spaced = front ++ blanks ++ back →
            (∀ line ∈ blanks, Text.trimChars line = []) →
              ofText spaced = (ofText content).spread front.length blanks.length) ∧
      ∀ content, (ofText content).Judges (Text.lines content) := by
  have parted := Text.lines_append_of_ended ended second
  refine ⟨?_, ?_, ?_, judges_ofText⟩
  · rw [ofText, parted, ofLines_append, ofLines_add, Text.length_lines_of_ended ended]
    rfl
  · intro blanks blanksEnded blank
    have spaced := Text.lines_append_of_ended (ended.append blanksEnded) second
    rw [Text.lines_append_of_ended ended] at spaced
    have inserted :=
      ofLines_insert (fun _ => trimChars_of_mem_lines blank) (Text.lines first) (Text.lines second)
    rw [ofText, ofText, spaced, parted, inserted, Text.length_lines_of_ended ended,
      Text.length_lines_of_ended blanksEnded]
  · intro content spaced front blanks back lines linesSpaced blank
    rw [ofText, ofText, lines, linesSpaced]
    exact ofLines_insert blank front back

/-- Errors in both parts, a line that ends with a carriage return and a line feed, and a last line
that is left open. -/
theorem ofText_joined_open_line :
    let first := "\x7b\"level\":\"info\"\x7d\r\n \t\n".toList
    let second := "[]\n\n nothing".toList
    Text.Ended first ∧
      ofText (first ++ second) = (ofText first).append ((ofText second).moved 2) ∧
      (ofText (first ++ second)).errors.map (fun error => (error.line, error.field?)) =
        [(1, some "timestamp"), (1, some "trace_id"), (1, some "event"), (3, none), (5, none)] ∧
      (ofText (first ++ second)).lines = 3 ∧
      ofText (first ++ "\x0b\n".toList ++ second) = (ofText (first ++ second)).spread 2 1 := by
  intro first second
  have ended : Text.Ended first := by decide
  obtain ⟨joined, spaced, -⟩ := ofText_joined ended second
  refine ⟨ended, joined, by decide +kernel, by decide +kernel, ?_⟩
  exact spaced "\x0b\n".toList (by decide) (List.all_eq_true.mp (by decide))

end LogCheck

end VerifyPipeline
