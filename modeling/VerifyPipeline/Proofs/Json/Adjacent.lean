import VerifyPipeline.Json.Decoder.Adjacent
import VerifyPipeline.Proofs.Json.Decoding

namespace VerifyPipeline

/-!
# Decoding variants told beside their content

A variant whose name is written in front of its content is read back with it, and so is a variant
without a content.
-/

namespace Json

/-- What is done to the result of a decoder is done to what is read. -/
theorem Decoder.Reads.map
    {decoder : Decoder α}
    {value : Json}
    {a : α}
    (reads : decoder.Reads value a)
    (f : α → β) :
    (decoder.map f).Reads value (f a) where
  exact := reads.exact
  tree := by
    simp only [Decoder.map, reads.tree, Reader.ok_bind]
    rfl
  text := by
    intro layout level levels gaps rest blank shallow stops
    simp [Decoder.map, reads.text layout level blank shallow stops]

section Adjacent

variable
  {names : AdjacentNames}
  {variants : List (String × Holding α)}
  {label : String}

/-- The tag chooses what is held beside it. -/
theorem Found.readMember_tag
    {holding : Holding α}
    (chosen : choose variants label = .ok holding)
    (layout : Layout)
    (level : Nat)
    {levels : Nat}
    (some : 0 < levels)
    {rest : List Char}
    (stops : Reader.Stops rest) :
    readMember names variants levels .neither
        (names.tag.toList.flatMap escaped ++
          '"' :: (layout.colon ++ ((Json.string label).write layout level ++ rest))) =
      .ok (.variant holding, rest) := by
  obtain ⟨gaps, blank, passed⟩ :=
    Reader.colon_append layout ((Json.string label).write layout level ++ rest)
  have read :
      Reader.choice variants levels (gaps ++ ((Json.string label).write layout level ++ rest)) =
        .ok (holding, rest) :=
    (Decoder.reads_choice chosen).text layout level blank some stops
  simp [readMember, Reader.string_append, passed, read]

/-- The content is read by what the tag has chosen. -/
theorem Found.readMember_content
    {decoder : Decoder α}
    {value : Json}
    {a : α}
    (reads : decoder.Reads value a)
    (apart : names.content ≠ names.tag)
    (layout : Layout)
    (level : Nat)
    {levels : Nat}
    (shallow : value.depth < levels)
    {rest : List Char}
    (stops : Reader.Stops rest) :
    readMember names variants levels (.variant (.content decoder))
        (names.content.toList.flatMap escaped ++
          '"' :: (layout.colon ++ (value.write layout level ++ rest))) =
      .ok (.both a, rest) := by
  obtain ⟨gaps, blank, passed⟩ :=
    Reader.colon_append layout (value.write layout level ++ rest)
  have read : decoder.text levels (gaps ++ (value.write layout level ++ rest)) = .ok (a, rest) :=
    reads.text layout level blank shallow stops
  simp [readMember, Reader.string_append, apart, passed, Holding.readContent, read]

/-- Members that are read and taken alike make a value. -/
theorem Decoder.reads_adjacent
    {members : List (String × Json)}
    (found : Found α)
    {a : α}
    (exact : ∀ member ∈ members, member.2.Exact)
    (taken : members.foldlM (Found.takeMember names variants) .neither = .ok found)
    (read :
      ∀ (layout : Layout) (level : Nat) {levels : Nat},
        0 < levels →
          (∀ member ∈ members, member.2.depth < levels) →
            ReadsMembers layout level (Found.readMember names variants levels) members .neither
              found)
    (finished : found.finish names = .ok a) :
    (Decoder.adjacent names variants).Reads (.object members) a where
  exact := .object exact
  tree := by simp only [adjacent, taken, Reader.ok_bind, finished]
  text := by
    intro layout level levels gaps rest blank shallow stops
    obtain ⟨levels, rfl, deeper, within⟩ := exists_inner_of_object shallow
    obtain ⟨inside, text, read⟩ :=
      members_write (read layout (level + 1) deeper within) rest
    simp [adjacent, text, Reader.scalar_brace blank, Reader.inside_cons deeper, read, finished,
      Reader.ofVerdict]

/-- A variant without a content is read from its name alone. -/
theorem Decoder.reads_adjacent_nothing
    {name : String}
    {a : α}
    (chosen : choose variants label = .ok (.nothing name a)) :
    (Decoder.adjacent names variants).Reads (.object [(names.tag, .string label)]) a := by
  have kind : (Decoder.choice variants).tree (.string label) = .ok (.nothing name a) := chosen
  refine reads_adjacent (.variant (.nothing name a)) ?_ ?_ ?_ rfl
  · exact List.forall_mem_singleton.mpr (.string label)
  · simp [Found.takeMember, kind, pure, Except.pure, -bind_pure_comp]
  · intro layout level levels some _
    exact .cons (fun _ stops => Found.readMember_tag chosen layout level some stops) .nil

/-- A variant with a content is read from its name and the content behind it. -/
theorem Decoder.reads_adjacent_content
    {decoder : Decoder α}
    {value : Json}
    {a : α}
    (chosen : choose variants label = .ok (.content decoder))
    (apart : names.content ≠ names.tag)
    (reads : decoder.Reads value a) :
    (Decoder.adjacent names variants).Reads
      (.object [(names.tag, .string label), (names.content, value)]) a := by
  have kind : (Decoder.choice variants).tree (.string label) = .ok (.content decoder) := chosen
  refine reads_adjacent (.both a) ?_ ?_ ?_ rfl
  · exact List.forall_mem_cons.mpr ⟨.string label, List.forall_mem_singleton.mpr reads.exact⟩
  · simp [Found.takeMember, kind, apart, Holding.ofContent, reads.tree, pure, Except.pure,
      -bind_pure_comp]
  · intro layout level levels some shallow
    have within : value.depth < levels := shallow (names.content, value) (by simp)
    exact .cons (fun _ stops => Found.readMember_tag chosen layout level some stops) <|
      .cons (fun _ stops => Found.readMember_content reads apart layout level within stops) .nil

end Adjacent

end Json

end VerifyPipeline
