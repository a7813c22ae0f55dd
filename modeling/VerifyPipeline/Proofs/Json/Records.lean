import VerifyPipeline.Json.Decoder.Record
import VerifyPipeline.Proofs.Json.Canonical
import VerifyPipeline.Proofs.Json.Tokens

namespace VerifyPipeline

/-!
# Taking records from objects

From an object that has each key once, every field of a record gets what is found under its name,
wherever that stands, and what belongs to no field is ignored.
-/

namespace Json

/-- What a field takes from its member, or has without one. -/
def Decoder.ofMember? (decoder : Decoder α) (name : String) : Option Json → Except Mismatch α
  | some value => decoder.tree value
  | none =>
    match decoder.absent? with
    | some standIn => .ok standIn
    | none => .error (.missing name)

namespace Fields

/-- The values of fields, each from what is found under its name. -/
def ofLookup (find : String → Option Json) : Fields α → Except Mismatch α
  | .done => .ok ()
  | .field name decoder rest => do
    let b ← decoder.ofMember? name (find name)
    return (b, ← rest.ofLookup find)

/-- Members of no field are ignored. -/
theorem takeValue_of_not_mem
    {key : String}
    {fields : Fields α}
    (foreign : key ∉ fields.names)
    (value : Json)
    (slots : fields.Slots) :
    fields.takeValue key value slots = .ok slots := by
  induction fields with
  | done =>
      rfl
  | field name decoder rest inductionHypothesis =>
      rw [names, List.mem_cons, not_or] at foreign
      obtain ⟨slot, slots⟩ := slots
      simp [takeValue, Ne.symm foreign.1, inductionHypothesis foreign.2]
      rfl

/-- The slots of fields after members have been taken. -/
def takeAll (fields : Fields α) (slots : fields.Slots) (members : List (String × Json)) :
    Except Mismatch fields.Slots :=
  members.foldlM (fun slots member => fields.takeValue member.1 member.2 slots) slots

/-- Members are taken one after the other. -/
theorem takeAll_cons_eq_ok
    {fields : Fields α}
    {slots final : fields.Slots}
    {member : String × Json}
    {others : List (String × Json)} :
    fields.takeAll slots (member :: others) = .ok final ↔
      ∃ next,
        fields.takeValue member.1 member.2 slots = .ok next ∧
          fields.takeAll next others = .ok final := by
  rw [takeAll, List.foldlM_cons, Reader.bind_eq_ok]
  rfl

section Field

variable
  {β γ : Type}
  {name : String}
  {decoder : Decoder β}
  {rest : Fields γ}
  {members : List (String × Json)}
  {slots final : rest.Slots}

/-- The slot of the first field, and those of the others. -/
def slotsOf (slot : Option β) (slots : rest.Slots) : (field name decoder rest).Slots :=
  (slot, slots)

/-- A member fills the slot of the first field if it has its name and the slot is free. -/
theorem takeValue_slotsOf
    (key : String)
    (value : Json)
    (slot : Option β) :
    (field name decoder rest).takeValue key value (slotsOf slot slots) =
      if name = key then
        if slot.isSome then .error (.repeated name)
        else decoder.tree value >>= fun b => .ok (slotsOf (some b) slots)
      else rest.takeValue key value slots >>= fun next => .ok (slotsOf slot next) := rfl

/-- A member with another key leaves the first field alone. -/
theorem takeValue_of_ne
    {key : String}
    (different : name ≠ key)
    (value : Json)
    (slot : Option β)
    (taken : rest.takeValue key value slots = .ok final) :
    (field name decoder rest).takeValue key value (slotsOf slot slots) =
      .ok (slotsOf slot final) := by
  rw [takeValue_slotsOf, if_neg different, taken]
  rfl

/-- A member with the key of the first field fills its slot. -/
theorem takeValue_of_decoded
    {value : Json}
    {b : β}
    (decoded : decoder.tree value = .ok b)
    (slots : rest.Slots) :
    (field name decoder rest).takeValue name value (slotsOf none slots) =
      .ok (slotsOf (some b) slots) := by
  rw [takeValue_slotsOf, if_pos rfl, decoded]
  rfl

/-- Without a member of its key, the slot of a field stays as it was. -/
theorem takeAll_of_absent
    (absent : name ∉ members.map Prod.fst)
    (slot : Option β)
    (taken : rest.takeAll slots members = .ok final) :
    (field name decoder rest).takeAll (slotsOf slot slots) members =
      .ok (slotsOf slot final) := by
  induction members generalizing slots with
  | nil =>
      obtain rfl := Except.ok.inj taken
      rfl
  | cons member others inductionHypothesis =>
      rw [List.map_cons, List.mem_cons, not_or] at absent
      rw [takeAll_cons_eq_ok] at taken ⊢
      obtain ⟨next, first, later⟩ := taken
      exact ⟨slotsOf slot next, takeValue_of_ne absent.1 member.2 slot first,
        inductionHypothesis absent.2 later⟩

/-- The slot of a field is filled from the member with its key.  No later member has the key, so the
slot stays as it is filled there. -/
theorem takeAll_of_found
    {value : Json}
    {b : β}
    (distinct : (members.map Prod.fst).Nodup)
    (foreign : name ∉ rest.names)
    (found : lookup? name members = some value)
    (decoded : decoder.tree value = .ok b)
    (taken : rest.takeAll slots members = .ok final) :
    (field name decoder rest).takeAll (slotsOf none slots) members =
      .ok (slotsOf (some b) final) := by
  induction members generalizing slots with
  | nil =>
      simp [lookup?] at found
  | cons member others inductionHypothesis =>
      rw [List.map_cons, List.nodup_cons] at distinct
      rw [takeAll_cons_eq_ok] at taken ⊢
      obtain ⟨next, first, later⟩ := taken
      rw [lookup?_cons] at found
      by_cases same : member.1 = name
      · subst same
        have only := lookup?_eq_none_iff.mpr distinct.1
        obtain rfl : member.2 = value := by simpa [only] using found
        rw [takeValue_of_not_mem foreign] at first
        obtain rfl := Except.ok.inj first
        exact ⟨slotsOf (some b) slots, takeValue_of_decoded decoded slots,
          takeAll_of_absent distinct.1 (some b) later⟩
      · rw [if_neg same, Option.or_none] at found
        exact ⟨slotsOf none next, takeValue_of_ne (Ne.symm same) member.2 none first,
          inductionHypothesis distinct.2 found later⟩

/-- A filled slot gives the field its value. -/
theorem finish_of_slot
    {b : β}
    {c : γ}
    (finished : rest.finish final = .ok c) :
    (field name decoder rest).finish (slotsOf (some b) final) = .ok (b, c) := by
  simp [finish, slotsOf, finished, pure, Except.pure]

/-- An empty slot gives the field the value that stands in for a missing one. -/
theorem finish_of_absent
    {b : β}
    {c : γ}
    (standIn : decoder.absent? = some b)
    (finished : rest.finish final = .ok c) :
    (field name decoder rest).finish (slotsOf none final) = .ok (b, c) := by
  simp [finish, slotsOf, standIn, finished, pure, Except.pure]

end Field

/-- Where no field is left, every member is passed over. -/
theorem takeAll_done (members : List (String × Json)) : done.takeAll () members = .ok () := by
  induction members with
  | nil =>
      rfl
  | cons member others inductionHypothesis =>
      exact takeAll_cons_eq_ok.mpr ⟨(), rfl, inductionHypothesis⟩

/-- Every field of a record gets what is found under its name. -/
theorem ofMembers_of_ofLookup
    {fields : Fields α}
    {members : List (String × Json)}
    {a : α}
    (distinctNames : fields.names.Nodup)
    (distinct : (members.map Prod.fst).Nodup)
    (found : fields.ofLookup (fun key => lookup? key members) = .ok a) :
    fields.ofMembers members = .ok a := by
  rw [ofMembers, Reader.bind_eq_ok]
  change ∃ slots, fields.takeAll fields.start members = .ok slots ∧ fields.finish slots = .ok a
  induction fields with
  | done =>
      exact ⟨(), takeAll_done members, found⟩
  | field name decoder rest inductionHypothesis =>
      rw [names, List.nodup_cons] at distinctNames
      rw [ofLookup, Reader.bind_eq_ok] at found
      obtain ⟨b, first, others⟩ := found
      rw [Reader.bind_eq_ok] at others
      obtain ⟨c, others, pair⟩ := others
      obtain rfl := Except.ok.inj pair
      obtain ⟨slots, taken, finished⟩ := inductionHypothesis distinctNames.2 others
      cases member? : lookup? name members with
      | some value =>
          rw [member?] at first
          exact ⟨slotsOf (some b) slots,
            takeAll_of_found distinct distinctNames.1 member? first taken,
            finish_of_slot finished⟩
      | none =>
          rw [member?, Decoder.ofMember?] at first
          cases standIn : decoder.absent? with
          | none =>
              rw [standIn] at first
              contradiction
          | some b =>
              rw [standIn] at first
              obtain rfl := Except.ok.inj first
              exact ⟨slotsOf none slots,
                takeAll_of_absent (lookup?_eq_none_iff.mp member?) none taken,
                finish_of_absent standIn finished⟩

/-! ## What a record has been taken from -/

section Taken

variable
  {β γ : Type}
  {name : String}
  {decoder : Decoder β}
  {rest : Fields γ}
  {members : List (String × Json)}
  {slots : rest.Slots}
  {final : (field name decoder rest).Slots}

/-- A member is either for the first field, whose slot was empty, or for the others. -/
theorem takeValue_field_cases
    {key : String}
    {value : Json}
    {slot : Option β}
    (taken :
      (field name decoder rest).takeValue key value (slotsOf slot slots) = .ok final) :
    (name = key ∧ slot = none ∧
        ∃ b, decoder.tree value = .ok b ∧ final = slotsOf (some b) slots) ∨
      (name ≠ key ∧
        ∃ next, rest.takeValue key value slots = .ok next ∧ final = slotsOf slot next) := by
  rw [takeValue_slotsOf] at taken
  split at taken
  · rename_i same
    split at taken
    · contradiction
    · rename_i blank
      obtain ⟨b, decoded, filled⟩ := Reader.bind_eq_ok.mp taken
      exact .inl ⟨same, by simpa using blank, b, decoded, (Except.ok.inj filled).symm⟩
  · rename_i different
    obtain ⟨next, passed, kept⟩ := Reader.bind_eq_ok.mp taken
    exact .inr ⟨different, next, passed, (Except.ok.inj kept).symm⟩

/-- A slot whose field has no member stays as it is. -/
theorem exists_takeAll_of_absent
    {slot : Option β}
    (absent : name ∉ members.map Prod.fst)
    (taken : (field name decoder rest).takeAll (slotsOf slot slots) members = .ok final) :
    ∃ later, rest.takeAll slots members = .ok later ∧ final = slotsOf slot later := by
  induction members generalizing slots with
  | nil =>
      exact ⟨slots, rfl, (Except.ok.inj taken).symm⟩
  | cons member others inductionHypothesis =>
      rw [List.map_cons, List.mem_cons, not_or] at absent
      obtain ⟨between, first, behind⟩ := takeAll_cons_eq_ok.mp taken
      rcases takeValue_field_cases first with ⟨same, _⟩ | ⟨_, next, passed, rfl⟩
      · exact absurd same absent.1
      · obtain ⟨later, through, kept⟩ := inductionHypothesis absent.2 behind
        exact ⟨later, takeAll_cons_eq_ok.mpr ⟨next, passed, through⟩, kept⟩

/-- The slot of a field is filled from its member, if it has one.  No other member has its key, so
nothing fills the slot again. -/
theorem exists_takeAll
    (distinct : (members.map Prod.fst).Nodup)
    (foreign : name ∉ rest.names)
    (taken : (field name decoder rest).takeAll (slotsOf none slots) members = .ok final) :
    ∃ slot later,
      rest.takeAll slots members = .ok later ∧
        final = slotsOf slot later ∧
        match lookup? name members with
        | some value => ∃ b, decoder.tree value = .ok b ∧ slot = some b
        | none => slot = none := by
  induction members generalizing slots with
  | nil =>
      exact ⟨none, slots, rfl, (Except.ok.inj taken).symm, rfl⟩
  | cons member others inductionHypothesis =>
      rw [List.map_cons, List.nodup_cons] at distinct
      obtain ⟨between, first, behind⟩ := takeAll_cons_eq_ok.mp taken
      rcases takeValue_field_cases first with
        ⟨rfl, _, b, decoded, rfl⟩ | ⟨different, next, passed, rfl⟩
      · have passed := takeValue_of_not_mem foreign member.2 slots
        have only := lookup?_eq_none_iff.mpr distinct.1
        obtain ⟨later, through, kept⟩ := exists_takeAll_of_absent distinct.1 behind
        refine ⟨some b, later, takeAll_cons_eq_ok.mpr ⟨slots, passed, through⟩, kept, ?_⟩
        simp [lookup?_cons, only, decoded]
      · obtain ⟨slot, later, through, kept, filled⟩ := inductionHypothesis distinct.2 behind
        refine ⟨slot, later, takeAll_cons_eq_ok.mpr ⟨next, passed, through⟩, kept, ?_⟩
        simpa [lookup?_cons, Ne.symm different] using filled

theorem finish_field_eq_ok
    {slot : Option β}
    {b : β}
    {c : γ}
    (finished : (field name decoder rest).finish (slotsOf slot slots) = .ok (b, c)) :
    slot.or decoder.absent? = some b ∧ rest.finish slots = .ok c := by
  unfold finish at finished
  simp only [slotsOf] at finished
  split at finished
  · rename_i found present
    obtain ⟨others, ended, pair⟩ := Reader.bind_eq_ok.mp finished
    obtain ⟨rfl, rfl⟩ := Prod.mk.inj (Except.ok.inj pair)
    exact ⟨by cases slot <;> exact present, ended⟩
  · contradiction

end Taken

/-- What a record is taken from is found under the names of its fields. -/
theorem ofLookup_of_ofMembers
    {fields : Fields α}
    {members : List (String × Json)}
    {a : α}
    (distinctNames : fields.names.Nodup)
    (distinct : (members.map Prod.fst).Nodup)
    (taken : fields.ofMembers members = .ok a) :
    fields.ofLookup (fun key => lookup? key members) = .ok a := by
  rw [ofMembers, Reader.bind_eq_ok] at taken
  change ∃ slots, fields.takeAll fields.start members = .ok slots ∧ fields.finish slots = .ok a
    at taken
  induction fields with
  | done =>
      rfl
  | field name decoder rest inductionHypothesis =>
      rw [names, List.nodup_cons] at distinctNames
      obtain ⟨final, taken, finished⟩ := taken
      obtain ⟨slot, later, through, rfl, filled⟩ := exists_takeAll distinct distinctNames.1 taken
      obtain ⟨b, c⟩ := a
      obtain ⟨present, others⟩ := finish_field_eq_ok finished
      have first : decoder.ofMember? name (lookup? name members) = .ok b := by
        cases found : lookup? name members with
        | some value =>
            rw [found] at filled
            obtain ⟨_, decoded, rfl⟩ := filled
            obtain rfl := Option.some.inj present
            exact decoded
        | none =>
            rw [found] at filled
            subst filled
            simp only [Option.none_or] at present
            simp only [Decoder.ofMember?, present]
      have behind := inductionHypothesis distinctNames.2 ⟨later, through, others⟩
      rw [ofLookup, first, Reader.ok_bind, behind]
      rfl

/-- A record has a field with a name and a decoder. -/
inductive Has {β : Type} (name : String) (decoder : Decoder β) : {α : Type} → Fields α → Prop where
  | here
      {γ : Type}
      {rest : Fields γ} :
      Has name decoder (field name decoder rest)
  | there
      {δ γ : Type}
      {other : String}
      {otherDecoder : Decoder δ}
      {rest : Fields γ}
      (later : Has name decoder rest) :
      Has name decoder (field other otherDecoder rest)

/-- A field of a record that was decoded has been decoded itself. -/
theorem Has.exists_of_ofLookup
    {β : Type}
    {name : String}
    {decoder : Decoder β}
    {fields : Fields α}
    {find : String → Option Json}
    {a : α}
    (has : fields.Has name decoder)
    (taken : fields.ofLookup find = .ok a) :
    ∃ b, decoder.ofMember? name (find name) = .ok b := by
  induction has with
  | here =>
      obtain ⟨b, first, _⟩ := Reader.bind_eq_ok.mp taken
      exact ⟨b, first⟩
  | there _ inductionHypothesis =>
      obtain ⟨_, _, others⟩ := Reader.bind_eq_ok.mp taken
      obtain ⟨_, others, _⟩ := Reader.bind_eq_ok.mp others
      exact inductionHypothesis others

end Fields

/-- A record is taken from the canonical form of an object field by field. -/
theorem Decoder.tree_record_canonical
    {fields : Fields β}
    {make : β → α}
    {members : List (String × Json)}
    {a : α}
    (distinctNames : fields.names.Nodup)
    (found : (fields.ofLookup fun key => (lookup? key members).map canonical).map make = .ok a)
    (name : String) :
    (Decoder.record name fields make).tree (object members).canonical = .ok a := by
  cases taken : fields.ofLookup fun key => (lookup? key members).map canonical with
  | error why =>
      rw [taken] at found
      contradiction
  | ok b =>
      rw [taken] at found
      obtain rfl := Except.ok.inj found
      simp only [← lookup?_canonicalMembers] at taken
      have read :=
        Fields.ofMembers_of_ofLookup distinctNames (nodup_canonicalMembers members) taken
      simp only [canonical, record, read, Reader.ok_bind]
      rfl

/-- A field of a record that was taken from an object comes from what stands under its name. -/
theorem Fields.Has.exists_of_tree_record
    {γ : Type}
    {field : String}
    {decoder : Decoder γ}
    {fields : Fields β}
    {make : β → α}
    {members : List (String × Json)}
    {a : α}
    {name : String}
    (has : fields.Has field decoder)
    (distinctNames : fields.names.Nodup)
    (distinct : (members.map Prod.fst).Nodup)
    (taken : (Decoder.record name fields make).tree (object members) = .ok a) :
    ∃ c, decoder.ofMember? field ((object members).get? field) = .ok c := by
  obtain ⟨_, ofMembers, _⟩ := Reader.bind_eq_ok.mp taken
  exact has.exists_of_ofLookup (Fields.ofLookup_of_ofMembers distinctNames distinct ofMembers)

end Json

end VerifyPipeline
