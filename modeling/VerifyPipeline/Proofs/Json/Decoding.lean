import Mathlib.Data.List.Forall2
import VerifyPipeline.Json.Decoder.Tagged
import VerifyPipeline.Proofs.Json.Records
import VerifyPipeline.Proofs.Json.Values

namespace VerifyPipeline

/-!
# Decoding what was written

A decoder that takes a written value to what it stands for does so from the value and from its text
alike, in either layout.  Each way to put decoders together keeps this.
-/

namespace Json

/-- A decoder takes a value, and the text of the value wherever it stands, to what it stands for. -/
structure Decoder.Reads (decoder : Decoder α) (value : Json) (a : α) : Prop where
  exact : value.Exact
  tree : decoder.tree value = .ok a
  /-- White space before the text does not matter, and what stands behind it is left. -/
  text :
    ∀ (layout : Layout) (level : Nat) {levels : Nat} {gaps rest : List Char},
      (∀ c ∈ gaps, Reader.isGap c = true) →
        value.depth < levels →
          Reader.Stops rest →
            decoder.text levels (gaps ++ (value.write layout level ++ rest)) = .ok (a, rest)

namespace Reader

variable
  {gaps : List Char}
  (blank : ∀ c ∈ gaps, isGap c = true)

include blank

/-- Of an array only the bracket is looked at. -/
theorem scalar_bracket (rest : List Char) :
    scalar (gaps ++ '[' :: rest) = .ok (.array [], '[' :: rest) := by
  rw [scalar_append blank]
  simp [scalar, isGap]

/-- Of an object only the brace is looked at. -/
theorem scalar_brace (rest : List Char) :
    scalar (gaps ++ '\x7b' :: rest) = .ok (.object [], '\x7b' :: rest) := by
  rw [scalar_append blank]
  simp [scalar, isGap]

end Reader

theorem Reader.inside_cons
    {levels : Nat}
    (deeper : 0 < levels)
    (body : Nat → Reader α)
    (c : Char)
    (rest : List Char) :
    inside (levels + 1) body (c :: rest) = body levels rest := by
  simp [inside, openBracket_cons deeper]

namespace Decoder

/-! ## Values without others inside -/

/-- A value without levels is read as it is judged. -/
theorem reads_simple
    {judge : Json → Except Mismatch α}
    {value : Json}
    {a : α}
    (exact : value.Exact)
    (flat : value.depth = 0)
    (judged : judge value = .ok a) :
    (Decoder.simple judge).Reads value a where
  exact := exact
  tree := judged
  text := by
    intro layout level levels gaps rest blank _ stops
    simp [simple, Reader.judged, Reader.scalar_append blank,
      Reader.scalar_write exact flat layout level stops, judged, Reader.ofVerdict]

theorem reads_bool (b : Bool) : Decoder.bool.Reads (.bool b) b :=
  reads_simple (.bool b) rfl rfl

theorem reads_string (text : String) : Decoder.string.Reads (.string text) text :=
  reads_simple (.string text) rfl rfl

theorem reads_natBelow
    {n : Nat}
    (below : n < wordLimit)
    (wanted : String) :
    (Decoder.natBelow wordLimit wanted).Reads (count n) n :=
  reads_simple (.count below) rfl (by simp [count, below])

theorem reads_int32 (n : Int32) : Decoder.int32.Reads (.whole n.toInt) n := by
  have inRange : -Int.pow 2 31 ≤ n.toInt ∧ n.toInt < Int.pow 2 31 := ⟨n.le_toInt, n.toInt_lt⟩
  exact reads_simple (.int32 n) rfl (by simp only [if_pos inRange, Int32.ofInt_toInt])

/-- A name is read as the choice that it stands for. -/
theorem reads_choice
    {choices : List (String × α)}
    {name : String}
    {a : α}
    (found : choose choices name = .ok a) :
    (Decoder.choice choices).Reads (.string name) a where
  exact := .string name
  tree := found
  text := by
    intro layout level levels gaps rest blank _ _
    simp [choice, Reader.choice, Reader.peekToken?_append blank, write, stringText, Reader.isGap,
      Reader.string_append, found, Reader.ofVerdict]

/-! ## Optional values -/

/-- Null is read as nothing. -/
theorem reads_optional_none (decoder : Decoder α) : decoder.optional.Reads .null none where
  exact := .null
  tree := rfl
  text := by
    intro layout level levels gaps rest blank _ _
    have passed : Reader.literal ['u', 'l', 'l'] ('u' :: 'l' :: 'l' :: rest) = .ok ((), rest) :=
      Reader.literal_append ['u', 'l', 'l'] rest
    simp [optional, Reader.peekToken?_append blank, write, Reader.isGap, passed]

/-- What is not null is read as by the decoder itself. -/
theorem Reads.optional
    {decoder : Decoder α}
    {value : Json}
    {a : α}
    (reads : decoder.Reads value a)
    (present : value ≠ .null) :
    decoder.optional.Reads value (some a) where
  exact := reads.exact
  tree := by
    have decoded := reads.tree
    cases value with
    | null =>
        contradiction
    | _ =>
        simp [Decoder.optional, decoded, pure, Except.pure]
  text := by
    intro layout level levels gaps rest blank shallow stops
    obtain ⟨c, more, text, token, other⟩ := reads.exact.write_head_of_present present layout level
    have decoded : decoder.text levels (value.write layout level ++ rest) = .ok (a, rest) :=
      reads.text layout level (List.forall_mem_nil _) shallow stops
    rw [text, List.cons_append] at decoded
    rw [text, List.cons_append]
    simp [Decoder.optional, Reader.peekToken?_append blank, token, other, decoded]

/-- A value that may be missing is written as `null` where it is. -/
theorem reads_optional
    {decoder : Decoder α}
    {encode : α → Json}
    (reads : ∀ a, decoder.Reads (encode a) a)
    (present : ∀ a, encode a ≠ .null)
    (value : Option α) :
    decoder.optional.Reads (Json.optional encode value) value := by
  cases value with
  | none =>
      exact reads_optional_none decoder
  | some a =>
      exact (reads a).optional (present a)

/-! ## Arrays -/

section Lists

variable
  {decoder : Decoder α}
  {items : List Json}
  {found : List α}

/-- Items are decoded one by one. -/
theorem mapM_tree
    (reads : List.Forall₂ decoder.Reads items found) :
    items.mapM decoder.tree = .ok found := by
  induction reads with
  | nil =>
      rfl
  | cons first _ inductionHypothesis =>
      rw [List.mapM_cons, first.tree, Reader.ok_bind, inductionHypothesis]
      rfl

/-- Put in front what a value stands for. -/
def take (decoder : Decoder α) (found : List α) (value : Json) : Except Mismatch (List α) := do
  return (← decoder.tree value) :: found

theorem take_of_reads
    {value : Json}
    {a : α}
    (reads : decoder.Reads value a)
    (found : List α) :
    decoder.take found value = .ok (a :: found) := by
  rw [take, reads.tree]
  rfl

/-- The loop over the items gathers what they are decoded to, the last one first. -/
theorem foldlM_take
    (reads : List.Forall₂ decoder.Reads items found)
    (start : List α) :
    items.foldlM decoder.take start = .ok (found.reverse ++ start) := by
  induction reads generalizing start with
  | nil =>
      rfl
  | cons first _ inductionHypothesis =>
      rw [List.foldlM_cons, take_of_reads first, Reader.ok_bind, inductionHypothesis,
        List.reverse_cons, List.append_assoc]
      rfl

/-- An item is read from its text as it is taken. -/
theorem Reads.readsItem
    {value : Json}
    {a : α}
    (reads : decoder.Reads value a)
    (layout : Layout)
    (level : Nat)
    {levels : Nat}
    (shallow : value.depth < levels) :
    ReadsItem layout level (fun found => return (← decoder.text levels) :: found) decoder.take
      value := by
  refine ⟨reads.exact, ?_⟩
  intro before after rest taken stops
  obtain rfl := Except.ok.inj ((take_of_reads reads before).symm.trans taken)
  have read : decoder.text levels (value.write layout level ++ rest) = .ok (a, rest) :=
    reads.text layout level (List.forall_mem_nil _) shallow stops
  simp [read]

/-- An array is read item by item. -/
theorem reads_array
    (reads : List.Forall₂ decoder.Reads items found) :
    (Decoder.list decoder).Reads (.array items) found := by
  have each : ∀ value ∈ items, ∃ a, decoder.Reads value a := by
    induction reads with
    | nil =>
        exact List.forall_mem_nil _
    | cons first _ inductionHypothesis =>
        exact List.forall_mem_cons.mpr ⟨⟨_, first⟩, inductionHypothesis⟩
  refine ⟨.array fun value member => ?_, mapM_tree reads, ?_⟩
  · obtain ⟨a, reads⟩ := each value member
    exact reads.exact
  · intro layout level levels gaps rest blank shallow stops
    obtain ⟨levels, rfl, deeper, within⟩ := exists_inner_of_array shallow
    have readsItem :
        ∀ value ∈ items,
          ReadsItem layout (level + 1) (fun found => return (← decoder.text levels) :: found)
            decoder.take value := by
      intro value member
      obtain ⟨a, reads⟩ := each value member
      exact reads.readsItem layout (level + 1) (within value member)
    obtain ⟨inside, text, read⟩ := items_write readsItem (foldlM_take reads []) rest
    simp [-bind_pure_comp, Decoder.list, text, Reader.scalar_bracket blank,
      Reader.inside_cons deeper, read]

/-- A list is read from the array of its items. -/
theorem reads_list
    {encode : α → Json}
    (reads : ∀ a ∈ found, decoder.Reads (encode a) a) :
    (Decoder.list decoder).Reads (.array (found.map encode)) found :=
  reads_array (List.forall₂_map_left_iff.mpr (List.forall₂_same.mpr reads))

end Lists

end Decoder

/-! ## Records -/

namespace Fields

/-- The members that the values of fields are written as, in the order of the fields. -/
inductive Written : {β : Type} → Fields β → List (String × Json) → β → Prop where
  | done : Written .done [] ()
  | field
      {β γ : Type}
      {name : String}
      {decoder : Decoder β}
      {rest : Fields γ}
      {value : Json}
      {members : List (String × Json)}
      {b : β}
      {c : γ}
      (reads : decoder.Reads value b)
      (others : Written rest members c) :
      Written (.field name decoder rest) ((name, value) :: members) (b, c)

/-- One of the fields takes a value under a key. -/
inductive Takes (key : String) (value : Json) : {β : Type} → Fields β → Prop where
  | here
      {β γ : Type}
      {decoder : Decoder β}
      {rest : Fields γ}
      {b : β}
      (reads : decoder.Reads value b) :
      Takes key value (.field key decoder rest)
  | there
      {β γ : Type}
      {name : String}
      {decoder : Decoder β}
      {rest : Fields γ}
      (different : name ≠ key)
      (takes : Takes key value rest) :
      Takes key value (.field name decoder rest)

variable
  {β : Type}
  {fields : Fields β}
  {members : List (String × Json)}
  {b : β}

/-- What a record is written as has the names of its fields for keys. -/
theorem Written.keys (written : fields.Written members b) :
    members.map Prod.fst = fields.names := by
  induction written with
  | done =>
      rfl
  | field reads others inductionHypothesis =>
      rw [List.map_cons, inductionHypothesis]
      rfl

theorem Written.exact (written : fields.Written members b) :
    ∀ member ∈ members, member.2.Exact := by
  induction written with
  | done =>
      exact List.forall_mem_nil _
  | field reads others inductionHypothesis =>
      exact List.forall_mem_cons.mpr ⟨reads.exact, inductionHypothesis⟩

/-- Each of its members fills a field. -/
theorem Written.takes
    (written : fields.Written members b)
    (distinct : fields.names.Nodup) :
    ∀ member ∈ members, fields.Takes member.1 member.2 := by
  induction written with
  | done =>
      exact List.forall_mem_nil _
  | @field _ _ name _ rest _ members _ _ reads others inductionHypothesis =>
      rw [names, List.nodup_cons] at distinct
      refine List.forall_mem_cons.mpr ⟨.here reads, fun member isMember => ?_⟩
      refine .there ?_ (inductionHypothesis distinct.2 member isMember)
      rintro rfl
      exact distinct.1 (others.keys ▸ List.mem_map_of_mem isMember)

/-- The fields are taken from their members, whatever other members follow. -/
theorem Written.ofMembers_append
    (written : fields.Written members b)
    (distinct : fields.names.Nodup)
    {others : List (String × Json)}
    (foreign : ∀ member ∈ others, member.1 ∉ fields.names) :
    fields.ofMembers (members ++ others) = .ok b := by
  rw [Fields.ofMembers, Reader.bind_eq_ok]
  change
    ∃ slots, fields.takeAll fields.start (members ++ others) = .ok slots ∧
      fields.finish slots = .ok b
  induction written with
  | done =>
      exact ⟨(), takeAll_done others, rfl⟩
  | @field _ _ name _ rest _ members b _ reads later inductionHypothesis =>
      rw [names, List.nodup_cons] at distinct
      simp only [names, List.mem_cons, not_or] at foreign
      obtain ⟨slots, taken, finished⟩ :=
        inductionHypothesis distinct.2 fun member isMember => (foreign member isMember).2
      have absent : name ∉ (members ++ others).map Prod.fst := by
        rw [List.map_append, List.mem_append, later.keys, List.mem_map]
        rintro (repeated | ⟨member, isMember, rfl⟩)
        · exact distinct.1 repeated
        · exact (foreign member isMember).1 rfl
      refine ⟨slotsOf (some b) slots, ?_, finish_of_slot finished⟩
      exact takeAll_cons_eq_ok.mpr ⟨slotsOf (some b) rest.start,
        takeValue_of_decoded reads.tree rest.start, takeAll_of_absent absent (some b) taken⟩

/-- All of them together give the record back. -/
theorem Written.ofMembers
    (written : fields.Written members b)
    (distinct : fields.names.Nodup) :
    fields.ofMembers members = .ok b := by
  simpa using written.ofMembers_append distinct (List.forall_mem_nil _)

/-- A value is read from behind its key as it is taken.  Only an empty slot takes a value. -/
theorem Takes.readValue
    {key : String}
    {value : Json}
    (takes : fields.Takes key value)
    {before after : fields.Slots}
    (taken : fields.takeValue key value before = .ok after)
    (layout : Layout)
    (level : Nat)
    {levels : Nat}
    (shallow : value.depth < levels)
    {rest : List Char}
    (stops : Reader.Stops rest) :
    fields.readValue key levels before (layout.colon ++ (value.write layout level ++ rest)) =
      .ok (after, rest) := by
  induction takes with
  | @here _ _ decoder others b reads =>
      obtain ⟨slot, slots⟩ := before
      obtain ⟨gaps, blank, passed⟩ :=
        Reader.colon_append layout (value.write layout level ++ rest)
      have read := reads.text layout level blank shallow stops
      cases slot with
      | some _ =>
          simp [takeValue] at taken
      | none =>
          have decoded :
              (field key decoder others).takeValue key value (slotsOf none slots) =
                .ok (slotsOf (some b) slots) :=
            takeValue_of_decoded reads.tree slots
          obtain rfl := Except.ok.inj (decoded.symm.trans taken)
          simp [Fields.readValue, slotsOf, passed, read]
          rfl
  | @there _ _ name decoder others different _ inductionHypothesis =>
      obtain ⟨slot, slots⟩ := before
      cases later : others.takeValue key value slots with
      | error why =>
          rw [takeValue] at taken
          simp only [different, ↓reduceIte, later] at taken
          contradiction
      | ok final =>
          have decoded :
              (field name decoder others).takeValue key value (slotsOf slot slots) =
                .ok (slotsOf slot final) :=
            takeValue_of_ne different value slot later
          obtain rfl := Except.ok.inj (decoded.symm.trans taken)
          simp [Fields.readValue, slotsOf, different, inductionHypothesis later]
          rfl

end Fields

/-- A record is read from the text of its members, where the loop over the text fills the slots as
the fold over the members does. -/
theorem Decoder.reads_record
    {fields : Fields β}
    {members : List (String × Json)}
    {b : β}
    {name : String}
    {make : β → α}
    {a : α}
    (distinct : fields.names.Nodup)
    (written : fields.Written members b)
    (made : make b = a) :
    (Decoder.record name fields make).Reads (.object members) a := by
  subst made
  have taken := written.ofMembers distinct
  refine ⟨.object written.exact, by simp [record, taken, -bind_pure_comp, pure, Except.pure], ?_⟩
  intro layout level levels gaps rest blank shallow stops
  obtain ⟨levels, rfl, deeper, within⟩ := exists_inner_of_object shallow
  rw [Fields.ofMembers, Reader.bind_eq_ok] at taken
  obtain ⟨slots, taken, finished⟩ := taken
  have readsMember :
      ∀ member ∈ members,
        ReadsMember layout (level + 1)
          (fun slots => do fields.readValue (← Reader.string) levels slots)
          (fun slots member => fields.takeValue member.1 member.2 slots) member := by
    rintro ⟨key, value⟩ isMember before after rest takenMember stops
    have takes := written.takes distinct (key, value) isMember
    have read :=
      takes.readValue takenMember layout (level + 1) (within (key, value) isMember) stops
    simp [Reader.string_append, read]
  obtain ⟨inside, text, read⟩ := members_write (readsMembers_of_foldlM readsMember taken) rest
  simp [record, text, Reader.scalar_brace blank, Reader.inside_cons deeper, Fields.readMembers,
    read, finished, Reader.ofVerdict]

/-! ## Tagged values -/

/-- A state that every item leaves alone is left alone by all of them. -/
theorem foldlM_of_fixed
    {step : σ → β → Except ε σ}
    {state : σ}
    {items : List β}
    (fixed : ∀ item ∈ items, step state item = .ok state) :
    items.foldlM step state = .ok state := by
  induction items with
  | nil =>
      rfl
  | cons item others inductionHypothesis =>
      rw [List.forall_mem_cons] at fixed
      rw [List.foldlM_cons, fixed.1, Reader.ok_bind, inductionHypothesis fixed.2]

section Tagged

variable
  {name tag label : String}
  {variants : Variants α}
  {variant : Variant α}
  {members : List (String × Json)}
  {a : α}

/-- A tag that stands first names the variant that takes all that follows. -/
theorem ofTaggedMembers_cons
    {identify : Json → Except Mismatch (Variant α)}
    {value : Json}
    (identified : identify value = .ok variant)
    (untagged : ∀ member ∈ members, member.1 ≠ tag)
    (decoded : variant.ofMembers members = .ok a) :
    ofTaggedMembers tag identify ((tag, value) :: members) = .ok a := by
  have kept : (members.filter fun member => member.1 ≠ tag) = members :=
    List.filter_eq_self.mpr fun member isMember => by simpa using untagged member isMember
  rw [ofTaggedMembers, List.foldlM_cons, if_pos rfl]
  simp only [Option.isSome_none, Bool.false_eq_true, ↓reduceIte, identified, Reader.ok_bind,
    pure, Except.pure]
  rw [foldlM_of_fixed fun member isMember => if_neg (untagged member isMember), Reader.ok_bind]
  simp only [List.filter_cons, ne_eq, not_true_eq_false, decide_false, Bool.false_eq_true,
    ↓reduceIte, kept, decoded]

/-- Take a member of a tagged object: the tag for the variant, and any other in front of the
others. -/
def takeTagged
    (tag : String)
    (variants : Variants α)
    (state : Option (Variant α) × List (String × Json))
    (member : String × Json) :
    Except Mismatch (Option (Variant α) × List (String × Json)) :=
  if member.1 = tag then
    if state.1.isSome then .error (.repeated tag)
    else do return (some (← chosen variants member.2), state.2)
  else .ok (state.1, member :: state.2)

/-- The tag chooses the variant. -/
theorem takeTagged_tag
    (chosen : choose variants label = .ok variant)
    (others : List (String × Json)) :
    takeTagged tag variants (none, others) (tag, .string label) = .ok (some variant, others) := by
  have found : Json.chosen variants (.string label) = .ok variant := chosen
  simp only [takeTagged, ↓reduceIte, Option.isSome_none, Bool.false_eq_true, found]
  rfl

/-- Members without the tag are gathered for the variant. -/
theorem foldlM_takeTagged
    (untagged : ∀ member ∈ members, member.1 ≠ tag)
    (found : Option (Variant α))
    (others : List (String × Json)) :
    members.foldlM (takeTagged tag variants) (found, others) =
      .ok (found, members.reverse ++ others) := by
  induction members generalizing others with
  | nil =>
      rfl
  | cons member rest inductionHypothesis =>
      rw [List.forall_mem_cons] at untagged
      rw [List.foldlM_cons, takeTagged, if_neg untagged.1, Reader.ok_bind,
        inductionHypothesis untagged.2, List.reverse_cons, List.append_assoc]
      rfl

theorem readsMember_tag
    (chosen : choose variants label = .ok variant)
    (layout : Layout)
    (level levels : Nat) :
    ReadsMember layout level (Reader.taggedMember tag variants levels) (takeTagged tag variants)
      (tag, .string label) := by
  rintro ⟨found, others⟩ after rest taken stops
  obtain ⟨gaps, blank, passed⟩ :=
    Reader.colon_append layout ((Json.string label).write layout level ++ rest)
  have read :
      Reader.scalar (gaps ++ ((Json.string label).write layout level ++ rest)) =
        .ok (.string label, rest) := by
    rw [Reader.scalar_append blank]
    exact Reader.scalar_write (.string label) rfl layout level stops
  cases found with
  | some variant =>
      simp [takeTagged] at taken
  | none =>
      obtain rfl := Except.ok.inj ((takeTagged_tag chosen others).symm.trans taken)
      simp [Reader.taggedMember, Reader.string_append, passed, Reader.judged, read, Json.chosen,
        chosen, Reader.ofVerdict]

/-- A member without the tag is read whole. -/
theorem readsMember_untagged
    {member : String × Json}
    (untagged : member.1 ≠ tag)
    (exact : member.2.Exact)
    (layout : Layout)
    (level : Nat)
    {levels : Nat}
    (shallow : member.2.depth < levels) :
    ReadsMember layout level (Reader.taggedMember tag variants levels) (takeTagged tag variants)
      member := by
  rintro before after rest taken stops
  obtain ⟨gaps, blank, passed⟩ :=
    Reader.colon_append layout (member.2.write layout level ++ rest)
  have read : Reader.any levels (member.2.write layout level ++ rest) = .ok (member.2, rest) :=
    Reader.any_write exact layout shallow stops
  rw [takeTagged, if_neg untagged] at taken
  obtain rfl := Except.ok.inj taken
  simp [Reader.taggedMember, Reader.string_append, untagged, passed,
    Reader.any_append blank (Nat.zero_lt_of_lt shallow), read]

/-- A tagged value is read if its variant can be made of the other members. -/
theorem Decoder.reads_tagged
    (chosen : choose variants label = .ok variant)
    (decoded : variant.ofMembers members = .ok a)
    (untagged : ∀ member ∈ members, member.1 ≠ tag)
    (exact : ∀ member ∈ members, member.2.Exact) :
    (Decoder.tagged name tag variants).Reads (.object ((tag, .string label) :: members)) a where
  exact := .object (List.forall_mem_cons.mpr ⟨.string label, exact⟩)
  tree := by
    have identified : Json.chosen variants (.string label) = .ok variant := chosen
    exact ofTaggedMembers_cons identified untagged decoded
  text := by
    intro layout level levels gaps rest blank shallow stops
    obtain ⟨levels, rfl, deeper, within⟩ := exists_inner_of_object shallow
    have readsMember :
        ∀ member ∈ (tag, Json.string label) :: members,
          ReadsMember layout (level + 1) (Reader.taggedMember tag variants levels)
            (takeTagged tag variants) member := by
      refine List.forall_mem_cons.mpr ⟨readsMember_tag chosen layout (level + 1) levels, ?_⟩
      exact fun member isMember =>
        readsMember_untagged (untagged member isMember) (exact member isMember) layout (level + 1)
          (within member (List.mem_cons_of_mem _ isMember))
    have taken :
        ((tag, Json.string label) :: members).foldlM (takeTagged tag variants) (none, []) =
          .ok (some variant, members.reverse ++ []) := by
      rw [List.foldlM_cons, takeTagged_tag chosen, Reader.ok_bind, foldlM_takeTagged untagged]
    obtain ⟨inside, text, read⟩ :=
      members_write (readsMembers_of_foldlM readsMember taken) rest
    simp [tagged, text, Reader.scalar_brace blank, Reader.inside_cons deeper, Reader.taggedObject,
      read, decoded, Reader.ofVerdict]

end Tagged

/-! ## Variants with fields -/

section Variants

variable
  {fields : Fields β}
  {members : List (String × Json)}
  {b : β}
  {kind : String}
  {a : α}

/-- A variant with fields is made of its members. -/
theorem Variant.ofMembers_record
    {make : β → α}
    (distinct : fields.names.Nodup)
    (written : fields.Written members b)
    (made : make b = a) :
    (Variant.record kind fields make).ofMembers members = .ok a := by
  simp only [record, written.ofMembers distinct, Reader.ok_bind, made]
  rfl

/-- Behind the members of the fields, the others are taken together. -/
theorem Variant.ofMembers_recordWith
    {ofOthers : List (String × Json) → Except Mismatch γ}
    {others : List (String × Json)}
    {c : γ}
    {make : β → γ → α}
    (distinct : fields.names.Nodup)
    (written : fields.Written members b)
    (foreign : ∀ member ∈ others, member.1 ∉ fields.names)
    (taken : ofOthers others = .ok c)
    (made : make b c = a) :
    (Variant.recordWith kind fields ofOthers make).ofMembers (members ++ others) = .ok a := by
  have dropped : (members.filter fun member => !fields.names.contains member.1) = [] := by
    refine List.filter_eq_nil_iff.mpr fun member isMember => ?_
    simp [← written.keys, List.mem_map_of_mem isMember]
  have kept : (others.filter fun member => !fields.names.contains member.1) = others :=
    List.filter_eq_self.mpr fun member isMember => by simpa using foreign member isMember
  simp only [recordWith, written.ofMembers_append distinct foreign, List.filter_append, dropped,
    kept, List.nil_append, Reader.ok_bind, taken, made]
  rfl

/-- A variant with fields is read from its tag and the members of the fields. -/
theorem Decoder.reads_tagged_record
    {name tag label : String}
    {variants : Variants α}
    {make : β → α}
    (chosen : choose variants label = .ok (.record kind fields make))
    (distinct : fields.names.Nodup)
    (untagged : tag ∉ fields.names)
    (written : fields.Written members b)
    (made : make b = a) :
    (Decoder.tagged name tag variants).Reads (.object ((tag, .string label) :: members)) a := by
  refine reads_tagged chosen (Variant.ofMembers_record distinct written made) ?_ written.exact
  rintro member isMember rfl
  exact untagged (written.keys ▸ List.mem_map_of_mem isMember)

end Variants

/-! ## Whole texts -/

/-- A value that is not too deep is decoded from its whole text. -/
theorem Decoder.Reads.ofText_write
    {decoder : Decoder α}
    {value : Json}
    {a : α}
    (reads : decoder.Reads value a)
    (shallow : value.depth < Reader.levelLimit)
    (layout : Layout) :
    decoder.ofText (value.write layout 0) = .ok a := by
  have read := reads.text layout 0 (List.forall_mem_nil _) shallow Reader.stops_nil
  rw [List.append_nil, List.nil_append] at read
  exact Reader.wholeText_of_read read

end Json

end VerifyPipeline
