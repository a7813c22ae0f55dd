import VerifyPipeline.Log.Schema
import VerifyPipeline.Proofs.Json.Records

namespace VerifyPipeline

/-!
# The vocabularies of accepted lines

A line is accepted if the rules of the schema find no fault in its object and an entry decodes from
it.  The rules look at the words of the fields that hold strings, the decoder at the shapes of all
fields.  Between them they leave one other shape over: a level and an outcome may also stand as an
object that has the word as its only key, with `null` under it.
-/

/-- A value stands for a word of a vocabulary: as a string, or as an object whose only key it is. -/
inductive Json.Spells (words : List String) : Json → Prop where
  | string
      {word : String}
      (known : word ∈ words) :
      Spells words (.string word)
  | key
      {word : String}
      (known : word ∈ words) :
      Spells words (.object [(word, .null)])

/-! ## What was decoded -/

namespace Json.Decoder

/-- What has no stand-in was taken from a member. -/
theorem exists_of_ofMember?
    {decoder : Decoder α}
    {name : String}
    {found? : Option Json}
    {a : α}
    (needed : decoder.absent? = none)
    (taken : decoder.ofMember? name found? = .ok a) :
    ∃ value, found? = some value ∧ decoder.tree value = .ok a := by
  cases found? with
  | some value =>
      exact ⟨value, rfl, taken⟩
  | none =>
      simp [ofMember?, needed] at taken

/-- Only a string is decoded to a text. -/
theorem eq_string_of_tree
    {value : Json}
    {text : String}
    (decoded : Decoder.string.tree value = .ok text) :
    value = .string text := by
  cases value with
  | string found =>
      exact congrArg Json.string (Except.ok.inj decoded)
  | _ =>
      contradiction

/-- An optional value that is not `null` decodes as a value that is there. -/
theorem exists_of_tree_optional
    {decoder : Decoder α}
    {value : Json}
    {a? : Option α}
    (decoded : decoder.optional.tree value = .ok a?)
    (present : value ≠ .null) :
    ∃ a, decoder.tree value = .ok a ∧ a? = some a := by
  have taken : (decoder.tree value >>= fun a => .ok (some a)) = .ok a? := by
    cases value <;> first | contradiction | exact decoded
  obtain ⟨a, decoded, same⟩ := Reader.bind_eq_ok.mp taken
  exact ⟨a, decoded, (Except.ok.inj same).symm⟩

/-- A choice is made only by a name that is on offer. -/
theorem mem_of_choose
    {choices : List (String × α)}
    {name : String}
    {a : α}
    (chosen : choose choices name = .ok a) :
    name ∈ choices.map Prod.fst := by
  unfold choose at chosen
  split at chosen
  · rename_i choice found
    have same : choice.1 = name := by simpa using List.find?_some found
    exact same ▸ List.mem_map_of_mem (List.mem_of_find?_eq_some found)
  · contradiction

/-- What is decoded to a choice spells one of its names. -/
theorem spells_of_tree_choice
    {choices : List (String × α)}
    {value : Json}
    {a : α}
    (decoded : (Decoder.choice choices).tree value = .ok a) :
    value.Spells (choices.map Prod.fst) := by
  unfold Decoder.choice at decoded
  simp only at decoded
  split at decoded
  · exact .string (mem_of_choose decoded)
  · rename_i content
    obtain ⟨_, chosen, others⟩ := Reader.bind_eq_ok.mp decoded
    obtain ⟨_, empty, _⟩ := Reader.bind_eq_ok.mp others
    obtain rfl : content = .null := by
      cases content <;> first | rfl | contradiction
    exact .key (mem_of_choose chosen)
  · contradiction
  · contradiction

end Json.Decoder

open Json

namespace LogSchema

/-! ## What the rules say -/

/-- A string in a field with a vocabulary is a word of it. -/
theorem mem_of_invalidValues_eq_nil
    {object : Json}
    {field word : String}
    {words : List String}
    (valid : invalidValues object = [])
    (vocabulary : (field, words) ∈ vocabularies)
    (found : object.get? field = some (.string word)) :
    word ∈ words := by
  have accepted := List.filterMap_eq_nil_iff.mp valid (field, words) vocabulary
  simp only [found, Option.bind_some, text?] at accepted
  split at accepted
  · rename_i known
    simpa using known
  · contradiction

/-- With an outcome comes the name of a step. -/
theorem exists_step_of_outcomeFaults_eq_nil
    {object value : Json}
    (stepped : outcomeFaults object = [])
    (found : object.get? "outcome" = some value) :
    ∃ id, object.get? "step_id" = some (.string id) := by
  unfold outcomeFaults at stepped
  split at stepped
  · contradiction
  · rename_i named
    simp only [found, Option.isSome_some, Bool.true_and, Option.isNone_iff_eq_none] at named
    obtain ⟨id, isText⟩ := Option.ne_none_iff_exists'.mp named
    obtain ⟨step, isStep, text⟩ := Option.bind_eq_some_iff.mp isText
    cases step with
    | string _ =>
        exact ⟨_, isStep⟩
    | _ =>
        contradiction

/-- A trace id without faults has three parts. -/
theorem length_of_traceFaults_eq_nil
    {object : Json}
    {text : String}
    (traced : traceFaults object = [])
    (found : object.get? "trace_id" = some (.string text)) :
    (Text.splitAtDoubleColon text.toList).length = 3 := by
  simp only [traceFaults, found, Option.bind_some, text?] at traced
  split at traced
  · assumption
  · contradiction

/-! ## Accepted lines -/

/-- What the fields of an accepted object hold. -/
structure Upholds (object : Json) : Prop where
  timestamp : ∃ text, object.get? "timestamp" = some (.string text)
  event : ∃ text, object.get? "event" = some (.string text)
  traceId :
    ∃ text,
      object.get? "trace_id" = some (.string text) ∧
        (Text.splitAtDoubleColon text.toList).length = 3
  level :
    ∃ value,
      object.get? "level" = some value ∧ value.Spells (LogLevel.all.map LogLevel.label)
  outcome :
    ∀ value,
      object.get? "outcome" = some value →
        value ≠ .null →
          value.Spells (Outcome.all.map Outcome.label)
  /-- An outcome, even if it is `null`, comes with a step. -/
  step :
    ∀ value,
      object.get? "outcome" = some value →
        ∃ id, object.get? "step_id" = some (.string id)
  tier :
    ∀ value,
      object.get? "tier" = some value →
        value ≠ .null →
          ∃ word ∈ Tier.all.map Tier.label, value = .string word
  policy :
    ∀ value,
      object.get? "policy" = some value →
        value ≠ .null →
          ∃ word ∈ FailurePolicy.all.map FailurePolicy.label, value = .string word

/-- A field that may be left out and has a vocabulary holds a word of it. -/
theorem exists_word_of_optional
    {object value : Json}
    {field : String}
    {words : List String}
    (valid : invalidValues object = [])
    (vocabulary : (field, words) ∈ vocabularies)
    (taken : ∃ text?, Decoder.string.optional.ofMember? field (object.get? field) = .ok text?)
    (found : object.get? field = some value)
    (present : value ≠ .null) :
    ∃ word ∈ words, value = .string word := by
  obtain ⟨_, taken⟩ := taken
  rw [found] at taken
  obtain ⟨word, decoded, _⟩ := Decoder.exists_of_tree_optional taken present
  obtain rfl := Decoder.eq_string_of_tree decoded
  exact ⟨word, mem_of_invalidValues_eq_nil valid vocabulary found, rfl⟩

theorem exists_text_of_taken
    {object : Json}
    {field : String}
    (taken : ∃ text, Decoder.string.ofMember? field (object.get? field) = .ok text) :
    ∃ text, object.get? field = some (.string text) := by
  obtain ⟨text, taken⟩ := taken
  obtain ⟨value, found, decoded⟩ := Decoder.exists_of_ofMember? rfl taken
  obtain rfl := Decoder.eq_string_of_tree decoded
  exact ⟨text, found⟩

/-- What the decoder of entries has taken of the fields that the rules look at. -/
structure Taken (object : Json) : Prop where
  timestamp : ∃ text, Decoder.string.ofMember? "timestamp" (object.get? "timestamp") = .ok text
  traceId : ∃ text, Decoder.string.ofMember? "trace_id" (object.get? "trace_id") = .ok text
  level : ∃ level, LogLevel.decoder.ofMember? "level" (object.get? "level") = .ok level
  event : ∃ text, Decoder.string.ofMember? "event" (object.get? "event") = .ok text
  tier : ∃ text?, Decoder.string.optional.ofMember? "tier" (object.get? "tier") = .ok text?
  policy : ∃ text?, Decoder.string.optional.ofMember? "policy" (object.get? "policy") = .ok text?
  outcome :
    ∃ outcome?,
      Outcome.decoder.optional.ofMember? "outcome" (object.get? "outcome") = .ok outcome?

/-- An object that is decoded to an entry has fields that can be taken.  A field is found by its
name and its decoder, wherever it stands. -/
theorem taken_of_tree
    {members : List (String × Json)}
    {entry : LogEntry}
    (distinct : (members.map Prod.fst).Nodup)
    (decoded : LogEntry.decoder.tree (.object members) = .ok entry) :
    Taken (.object members) := by
  constructor
  all_goals
    exact Fields.Has.exists_of_tree_record (by repeat constructor) (by decide) distinct decoded

/-- An object without faults that is decoded to an entry upholds the schema. -/
theorem upholds_of_tree
    {members : List (String × Json)}
    {entry : LogEntry}
    (distinct : (members.map Prod.fst).Nodup)
    (faultless : faults (.object members) = [])
    (decoded : LogEntry.decoder.tree (.object members) = .ok entry) :
    Upholds (.object members) := by
  simp only [faults, List.append_eq_nil_iff] at faultless
  obtain ⟨⟨⟨_, valid⟩, stepped⟩, traced⟩ := faultless
  have taken := taken_of_tree distinct decoded
  exact {
    timestamp := exists_text_of_taken taken.timestamp
    event := exists_text_of_taken taken.event
    traceId := by
      obtain ⟨text, found⟩ := exists_text_of_taken taken.traceId
      exact ⟨text, found, length_of_traceFaults_eq_nil traced found⟩
    level := by
      obtain ⟨_, level⟩ := taken.level
      obtain ⟨value, found, chosen⟩ := Decoder.exists_of_ofMember? rfl level
      exact ⟨value, found, Decoder.spells_of_tree_choice chosen⟩
    outcome := by
      intro value found present
      obtain ⟨_, outcome⟩ := taken.outcome
      rw [found] at outcome
      obtain ⟨_, chosen, _⟩ := Decoder.exists_of_tree_optional outcome present
      exact Decoder.spells_of_tree_choice chosen
    step := fun value found => exists_step_of_outcomeFaults_eq_nil stepped found
    tier := fun value found present =>
      exists_word_of_optional valid (by simp [vocabularies]) taken.tier found present
    policy := fun value found present =>
      exists_word_of_optional valid (by simp [vocabularies]) taken.policy found present
  }

/-- The object on an accepted line keeps to the vocabularies, has the texts of the required fields,
and names a step with every outcome. -/
theorem checkLine_upholds
    {text : List Char}
    {line : Nat}
    {entry : LogEntry}
    (accepted : checkLine text line = .ok entry) :
    ∃ value members,
      Json.ofText text = .ok value ∧
        value.canonical = .object members ∧
        Upholds (.object members) := by
  unfold checkLine checkText at accepted
  cases read : Json.ofText text with
  | error failure =>
      simp [read] at accepted
  | ok value =>
      cases value with
      | object given =>
          simp only [read, canonical] at accepted
          cases faultless : faults (.object (canonicalMembers given)) with
          | cons fault others =>
              simp [faultless] at accepted
          | nil =>
              cases decoded : LogEntry.decoder.tree (.object (canonicalMembers given)) with
              | error why =>
                  simp [faultless, decoded] at accepted
              | ok found =>
                  exact ⟨_, _, rfl, rfl,
                    upholds_of_tree (nodup_canonicalMembers given) faultless decoded⟩
      | _ =>
          simp [read, canonical] at accepted

/-- A line whose level is an object. -/
def levelUnderKey : List Char :=
  ("\x7b\"timestamp\":\"2026-01-01T00:00:00.000Z\",\"trace_id\":\"a::b::001\"," ++
    "\"level\":\x7b\"info\":null\x7d,\"event\":\"x\"\x7d").toList

/-- The rules look at levels that are strings only, so a level may be accepted as the key of an
object. -/
theorem checkLine_upholds_level_under_key :
    ∃ entry value members,
      checkLine levelUnderKey 1 = .ok entry ∧
        Json.ofText levelUnderKey = .ok value ∧
        value.canonical = .object members ∧
        Upholds (.object members) ∧
        ∃ word ∈ LogLevel.all.map LogLevel.label,
          (Json.object members).get? "level" = some (.object [(word, .null)]) := by
  have accepted : (checkLine levelUnderKey 1).toOption.isSome := by decide +kernel
  have noString :
      ((Json.ofText levelUnderKey).toOption.bind fun value =>
        (value.canonical.get? "level").bind text?) = none := by
    decide +kernel
  cases checked : checkLine levelUnderKey 1 with
  | error errors =>
      rw [checked] at accepted
      exact absurd accepted Bool.false_ne_true
  | ok entry =>
      obtain ⟨value, members, read, object, upholds⟩ := checkLine_upholds checked
      refine ⟨entry, value, members, rfl, read, object, upholds, ?_⟩
      obtain ⟨level, found, spells⟩ := upholds.level
      simp only [read, object, Except.toOption, Option.bind_some, found] at noString
      cases spells with
      | string _ =>
          simp [text?] at noString
      | key known =>
          exact ⟨_, known, found⟩

end LogSchema

end VerifyPipeline
