import Mathlib.Logic.Relation
import VerifyPipeline.Path.Basic
import VerifyPipeline.Proofs.Text.Splitting

namespace VerifyPipeline

/-!
# The segments of paths

A path is divided at its slashes, and its segments make up the path again.  What is done to the end
of a path is done to its last segment.  So the path beside a report ends in another name than the
path of the report.
-/

/-- A joined text is the text that has been divided. -/
theorem Text.intercalate_splitAt
    (separator : Char)
    (text : List Char) :
    [separator].intercalate (splitAt separator text) = text := by
  induction text with
  | nil =>
      rfl
  | cons c rest inductionHypothesis =>
      obtain ⟨piece, others, pieces⟩ :=
        List.exists_cons_of_ne_nil (splitAt_ne_nil separator rest)
      rw [pieces] at inductionHypothesis
      unfold splitAt
      split
      · rename_i same
        rw [pieces, List.intercalate_cons_cons, inductionHypothesis, same]
        rfl
      · rw [pieces, consHead]
        cases others with
        | nil =>
            simpa using inductionHypothesis
        | cons next others =>
            rw [List.intercalate_cons_cons] at inductionHypothesis ⊢
            rw [List.cons_append, List.cons_append, inductionHypothesis]

namespace Path

/-- No segment of a path holds a slash. -/
theorem not_mem_of_mem_segments
    {path name : String}
    (member : name ∈ segments path) :
    '/' ∉ name.toList := by
  obtain ⟨piece, isPiece, rfl⟩ := List.mem_map.mp member
  simpa using Text.not_mem_of_mem_splitAt isPiece

/-- A path is put together again from its segments. -/
theorem ofSegments_segments (path : String) : ofSegments (segments path) = path := by
  rw [← String.toList_inj]
  simp only [ofSegments, segments, String.toList_intercalate, List.map_map, Function.comp_def,
    String.toList_ofList, List.map_id']
  exact Text.intercalate_splitAt '/' path.toList

/-- Names without slashes are the segments of the path that they make. -/
theorem segments_ofSegments
    {names : List String}
    (present : names ≠ [])
    (clean : ∀ name ∈ names, '/' ∉ name.toList) :
    segments (ofSegments names) = names := by
  have pieces : names.map String.toList ≠ [] := by simpa using present
  have divided := Text.splitAt_intercalate pieces (List.forall_mem_map.mpr clean)
  rw [segments, ofSegments, String.toList_intercalate]
  change (Text.splitAt '/' (['/'].intercalate _)).map String.ofList = names
  rw [divided]
  simp [Function.comp_def]

/-- What follows joined segments follows the last of them. -/
theorem ofSegments_append
    (before : List String)
    (name text : String) :
    ofSegments (before ++ [name]) ++ text = ofSegments (before ++ [name ++ text]) := by
  induction before with
  | nil =>
      simp [ofSegments]
  | cons first others inductionHypothesis =>
      cases others with
      | nil =>
          simp [ofSegments, String.append_assoc]
      | cons second rest =>
          simp only [ofSegments, List.cons_append, String.intercalate_cons_cons,
            String.append_assoc] at inductionHypothesis ⊢
          rw [inductionHypothesis]

/-- One more segment follows a slash. -/
theorem ofSegments_concat
    {before : List String}
    (present : before ≠ [])
    (name : String) :
    ofSegments (before ++ [name]) = ofSegments before ++ "/" ++ name := by
  induction before with
  | nil =>
      contradiction
  | cons first others inductionHypothesis =>
      cases others with
      | nil =>
          simp [ofSegments]
      | cons second rest =>
          have later := inductionHypothesis (by simp)
          simp only [ofSegments, List.cons_append, String.intercalate_cons_cons] at later ⊢
          rw [later]
          simp only [String.append_assoc]

theorem clean_of_segments
    {path name : String}
    {before : List String}
    (divided : segments path = before ++ [name]) :
    (∀ other ∈ before, '/' ∉ other.toList) ∧ '/' ∉ name.toList := by
  have clean : ∀ other ∈ before ++ [name], '/' ∉ other.toList := by
    rw [← divided]
    exact fun _ => not_mem_of_mem_segments
  rwa [List.forall_mem_append, List.forall_mem_singleton] at clean

/-- What is put behind a path is put behind its last segment. -/
theorem segments_append
    {path name text : String}
    {before : List String}
    (divided : segments path = before ++ [name])
    (clean : '/' ∉ text.toList) :
    segments (path ++ text) = before ++ [name ++ text] := by
  obtain ⟨cleanBefore, cleanName⟩ := clean_of_segments divided
  rw [← ofSegments_segments path, divided, ofSegments_append]
  refine segments_ofSegments (by simp) (List.forall_mem_append.mpr ⟨cleanBefore, ?_⟩)
  simp [cleanName, clean]

/-- The last segment of a path says something unless it is empty or a single point. -/
theorem lastName?_of_segments
    {path name : String}
    {before : List String}
    (divided : segments path = before ++ [name])
    (notEmpty : name ≠ "")
    (notHere : name ≠ ".") :
    lastName? path = if name = ".." then none else some (before.reverse, name) := by
  have spoken : dropSilent (name :: before.reverse) = name :: before.reverse := by
    cases before.reverse with
    | nil =>
        rfl
    | cons next rest =>
        simp [dropSilent, notEmpty, notHere]
  rw [lastName?, divided, List.reverse_append, List.reverse_singleton, List.singleton_append,
    spoken]
  simp [notEmpty, notHere]

/-! ## Extensions -/

/-- How a name is divided at its last point. -/
inductive Divides (name : String) : String × Option String → Prop where
  | whole : Divides name (name, none)
  | extended
      {stem extension : String}
      (isStem : stem ≠ "")
      (joined : name = stem ++ "." ++ extension)
      (last : '.' ∉ extension.toList) :
      Divides name (stem, some extension)

/-- A name is divided at its last dot. -/
theorem divides_divideName (name : String) : Divides name (divideName name) := by
  have parts := List.takeWhile_append_dropWhile (p := (· ≠ '.')) (l := name.toList.reverse)
  have dropped :=
    @List.drop_left _ (name.toList.reverse.takeWhile (· ≠ '.'))
      (name.toList.reverse.dropWhile (· ≠ '.'))
  rw [parts] at dropped
  have free : ∀ c ∈ name.toList.reverse.takeWhile (· ≠ '.'), c ≠ '.' := by
    intro c member
    simpa using List.all_eq_true.mp List.all_takeWhile c member
  have point := List.head?_dropWhile_not (· ≠ '.') name.toList.reverse
  unfold divideName
  simp only [dropped]
  generalize name.toList.reverse.takeWhile (· ≠ '.') = behind at parts free ⊢
  cases rest : name.toList.reverse.dropWhile (· ≠ '.') with
  | nil =>
      exact .whole
  | cons c before =>
      cases before with
      | nil =>
          exact .whole
      | cons d before =>
          rw [rest] at parts point
          obtain rfl : c = '.' := by simpa using point
          refine .extended ?_ ?_ ?_
          · simp [← String.toList_inj]
          · have reversed := congrArg List.reverse parts
            rw [List.reverse_reverse] at reversed
            simp [← String.toList_inj, ← reversed]
          · intro member
            rw [String.toList_ofList, List.mem_reverse] at member
            exact free '.' member rfl

/-- What follows a point is the extension if there is no point in it. -/
theorem divideName_extended
    {stem extension : String}
    (isStem : stem ≠ "")
    (last : '.' ∉ extension.toList) :
    divideName (stem ++ "." ++ extension) = (stem, some extension) := by
  have reversed :
      (stem ++ "." ++ extension).toList.reverse =
        extension.toList.reverse ++ '.' :: stem.toList.reverse := by
    simp
  have free : ∀ c ∈ extension.toList.reverse, decide (c ≠ '.') = true := by
    intro c member
    refine decide_eq_true fun same => last ?_
    rw [← same]
    exact List.mem_reverse.mp member
  have behind :
      (extension.toList.reverse ++ '.' :: stem.toList.reverse).takeWhile (· ≠ '.') =
        extension.toList.reverse := by
    rw [List.takeWhile_append_of_pos free]
    simp
  have present : stem.toList.reverse ≠ [] := by simpa using isStem
  obtain ⟨character, before, shape⟩ := List.exists_cons_of_ne_nil present
  unfold divideName
  simp only [reversed, behind, List.drop_left]
  rw [shape]
  simp [← shape]

/-- A point at the end is the last one. -/
theorem divideName_point
    {stem : String}
    (isStem : stem ≠ "") :
    divideName (stem ++ ".") = (stem, some "") := by
  have divided := @divideName_extended stem "" isStem List.not_mem_nil
  rwa [String.append_empty] at divided

/-- Another extension changes only the last segment. -/
theorem segments_withExtension
    {path stem last extension : String}
    {before : List String}
    {old? : Option String}
    (kept : lastName? (withoutExtension path) = some (before.reverse, last))
    (divided : divideName last = (stem, old?))
    (clean : ∀ name ∈ before ++ [stem ++ "." ++ extension], '/' ∉ name.toList) :
    segments (withExtension path extension) = before ++ [stem ++ "." ++ extension] := by
  have joined :
      withExtension path extension = ofSegments (before ++ [stem ++ "." ++ extension]) := by
    simp only [withExtension, kept, divided, List.reverse_cons, List.reverse_reverse]
  rw [joined]
  exact segments_ofSegments (by simp) clean

theorem withoutExtension_append
    {kept extension : String}
    (extended : extension? (kept ++ extension) = some extension) :
    withoutExtension (kept ++ extension) = kept := by
  rw [withoutExtension, extended, ← String.toList_inj]
  simp only [String.length_append, Nat.add_sub_cancel, String.toList_append, String.toList_ofList]
  exact List.take_left' String.length_toList

section Named

variable
  {path name stem extension : String}
  {before : List String}

/-- A path without the extension of its last segment ends in a point. -/
theorem segments_withoutExtension
    (divided : segments path = before ++ [name])
    (extended : extension? path = some extension)
    (joined : name = stem ++ "." ++ extension) :
    segments (withoutExtension path) = before ++ [stem ++ "."] := by
  obtain ⟨cleanBefore, cleanName⟩ := clean_of_segments divided
  have cleanStem : '/' ∉ (stem ++ ".").toList := by
    intro member
    apply cleanName
    rw [joined, String.toList_append]
    exact List.mem_append_left _ member
  have isPath : path = ofSegments (before ++ [stem ++ "."]) ++ extension := by
    rw [ofSegments_append, ← joined, ← divided, ofSegments_segments]
  have kept : withoutExtension path = ofSegments (before ++ [stem ++ "."]) := by
    rw [isPath] at extended ⊢
    exact withoutExtension_append extended
  rw [kept]
  refine segments_ofSegments (by simp) ?_
  rw [List.forall_mem_append, List.forall_mem_singleton]
  exact ⟨cleanBefore, cleanStem⟩

/-- A stem with a point is a name, or a step upwards. -/
theorem ne_of_stem
    (isStem : stem ≠ "") :
    stem ++ "." ≠ "" ∧ stem ++ "." ≠ "." := by
  have positive : stem.length ≠ 0 := fun zero => isStem (String.length_eq_zero_iff.mp zero)
  have point : ".".length = 1 := rfl
  constructor
  · intro same
    have length := congrArg String.length same
    rw [String.length_append, String.length_empty] at length
    omega
  · intro same
    have length := congrArg String.length same
    rw [String.length_append] at length
    omega

/-- How the segment that stands beside a name in the path of the other rendering differs from it. -/
structure Beside (name other : String) : Prop where
  different : other ≠ name
  notEmpty : other ≠ ""
  notHere : other ≠ "."
  extended : other ≠ ".." → (divideName other).2 = some "json"

/-- The name with the extension for JSON is beside the name, if it is another one. -/
theorem beside_of_stem
    (isStem : stem ≠ "")
    (different : stem ++ "." ++ "json" ≠ name) :
    Beside name (stem ++ "." ++ "json") := by
  have ends : (stem ++ "." ++ "json").toList.getLast? = some 'n' := by
    rw [String.toList_append, List.getLast?_append]
    rfl
  exact {
    different := different
    notEmpty := fun same => absurd (same ▸ ends) (by decide)
    notHere := fun same => absurd (same ▸ ends) (by decide)
    extended := fun _ => by rw [divideName_extended isStem (by decide)]
  }

/-- The path beside a report ends in another segment than the path of the report.  If the name
without its extension is a step upwards, it stays as it is. -/
theorem exists_segments_jsonSibling
    (divided : segments path = before ++ [name])
    (notEmpty : name ≠ "")
    (notHere : name ≠ ".")
    (notUp : name ≠ "..") :
    ∃ other, segments (jsonSibling path) = before ++ [other] ∧ Beside name other := by
  have named : lastName? path = some (before.reverse, name) := by
    rw [lastName?_of_segments divided notEmpty notHere, if_neg notUp]
  obtain ⟨cleanBefore, cleanName⟩ := clean_of_segments divided
  have cleanWith {last : String} (cleanLast : '/' ∉ last.toList) :
      ∀ other ∈ before ++ [last], '/' ∉ other.toList := by
    rw [List.forall_mem_append, List.forall_mem_singleton]
    exact ⟨cleanBefore, cleanLast⟩
  have divides := divides_divideName name
  cases divided? : divideName name with
  | mk stem old? =>
      rw [divided?] at divides
      have extended : extension? path = old? := by
        rw [extension?, named]
        exact congrArg Prod.snd divided?
      cases divides with
      | whole =>
          have kept : withoutExtension path = path := by
            rw [withoutExtension, extended]
          refine ⟨name ++ "." ++ "json", ?_,
            beside_of_stem notEmpty (by simp [← String.toList_inj])⟩
          rw [jsonSibling, extended, if_neg nofun]
          exact segments_withExtension (kept.symm ▸ named) divided?
            (cleanWith (by simp [cleanName]))
      | @extended _ extension isStem joined last =>
          by_cases isJson : extension = "json"
          · refine ⟨name ++ "." ++ "json", ?_,
              beside_of_stem notEmpty (by simp [← String.toList_inj])⟩
            rw [jsonSibling, extended, if_pos (congrArg some isJson), String.append_assoc]
            exact segments_append divided (by decide)
          · have cleanStem : '/' ∉ stem.toList := by
              intro member
              exact cleanName (by simp [joined, member])
            have kept := segments_withoutExtension divided extended joined
            obtain ⟨keptNotEmpty, keptNotHere⟩ := ne_of_stem isStem
            have keptName := lastName?_of_segments kept keptNotEmpty keptNotHere
            rw [jsonSibling, extended, if_neg (by simpa using isJson)]
            by_cases up : stem ++ "." = ".."
            · rw [if_pos up] at keptName
              refine ⟨stem ++ ".", ?_, ?_⟩
              · simp only [withExtension, keptName, kept]
              · exact {
                  different := fun same => notUp (same.symm.trans up)
                  notEmpty := keptNotEmpty
                  notHere := keptNotHere
                  extended := fun notUp => absurd up notUp
                }
            · rw [if_neg up] at keptName
              refine ⟨stem ++ "." ++ "json", ?_, beside_of_stem isStem ?_⟩
              · exact segments_withExtension keptName (divideName_point isStem)
                  (cleanWith (by simp [cleanStem]))
              · rw [joined]
                intro same
                have ends := congrArg String.toList same
                simp only [String.toList_append] at ends
                exact isJson (String.toList_inj.mp (List.append_cancel_left ends)).symm

end Named

/-! ## Before the last segment -/

section Before

variable
  {path beside name other : String}
  {before : List String}

/-- A path starts at the root if the first of several segments is empty. -/
theorem isAbsolute_iff_segments (path : String) :
    isAbsolute path = true ↔ (segments path).dropLast.head? = some "" := by
  rw [isAbsolute, segments, decide_eq_true_iff]
  cases path.toList with
  | nil =>
      simp [Text.splitAt]
  | cons c rest =>
      obtain ⟨piece, others, pieces⟩ :=
        List.exists_cons_of_ne_nil (Text.splitAt_ne_nil '/' rest)
      rw [Text.splitAt, pieces]
      by_cases slash : c = '/'
      · simp [slash]
      · rw [if_neg slash, Text.consHead]
        cases others <;> simp [slash, ← String.toList_inj]

theorem isAbsolute_eq_of_segments
    (divided : segments path = before ++ [name])
    (dividedToo : segments beside = before ++ [other]) :
    isAbsolute beside = isAbsolute path := by
  rw [Bool.eq_iff_iff, isAbsolute_iff_segments, isAbsolute_iff_segments, divided, dividedToo,
    List.dropLast_concat, List.dropLast_concat]

/-- What lies before the last segment does not depend on it. -/
theorem parent?_eq_of_segments
    (divided : segments path = before ++ [name])
    (notEmpty : name ≠ "")
    (notHere : name ≠ ".")
    (dividedToo : segments beside = before ++ [other])
    (isBeside : Beside name other) :
    parent? beside = parent? path := by
  unfold parent?
  rw [divided, dividedToo, isAbsolute_eq_of_segments divided dividedToo]
  simp only [List.reverse_append, List.reverse_singleton, List.singleton_append]
  cases before.reverse with
  | nil =>
      simp [dropSilent, notEmpty, isBeside.notEmpty]
  | cons last rest =>
      simp [dropSilent, notEmpty, notHere, isBeside.notEmpty, isBeside.notHere]

/-- The segment beside a name has the extension, unless it is a step upwards. -/
theorem Beside.extension?_eq
    (isBeside : Beside name other)
    (dividedToo : segments beside = before ++ [other])
    (notUp : other ≠ "..") :
    extension? beside = some "json" := by
  rw [extension?, lastName?_of_segments dividedToo isBeside.notEmpty isBeside.notHere, if_neg notUp]
  exact isBeside.extended notUp

/-- A path lies above another one if it is what lies before the last segment, or above that. -/
def Above (above path : String) : Prop :=
  Relation.TransGen (fun lower upper => parent? lower = some upper) path above

theorem Above.congr
    {above : String}
    (same : parent? beside = parent? path)
    (isAbove : Above above beside) :
    Above above path := by
  unfold Above at isAbove ⊢
  rw [Relation.TransGen.head'_iff] at isAbove ⊢
  rwa [same] at isAbove

end Before

end Path

end VerifyPipeline
