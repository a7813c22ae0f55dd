import VerifyPipeline.Json.Decoder.Basic
import VerifyPipeline.Proofs.Json.Canonical
import VerifyPipeline.Proofs.Json.Tokens

namespace VerifyPipeline

/-!
# Reading values that were written

A value without floating numbers, whose whole numbers fit into a word, is read back from its text
in either layout, if it is not nested deeper than the reader goes.
-/

namespace Json

/-- A value whose numbers are whole and fit into a word of 64 bits, with or without a sign. -/
inductive Exact : Json → Prop where
  | null : Exact .null
  | bool (b : Bool) : Exact (.bool b)
  | whole
      {n : Int}
      (least : -(Int.pow 2 63) ≤ n)
      (greatest : n < Int.pow 2 64) :
      Exact (.whole n)
  | string (text : String) : Exact (.string text)
  | array
      {items : List Json}
      (exact : ∀ item ∈ items, Exact item) :
      Exact (.array items)
  | object
      {members : List (String × Json)}
      (exact : ∀ member ∈ members, Exact member.2) :
      Exact (.object members)

/-- A number that is a word is written exactly. -/
theorem Exact.count
    {n : Nat}
    (below : n < Decoder.wordLimit) :
    (Json.count n).Exact := by
  have limit : (Decoder.wordLimit : Int) = Int.pow 2 64 := rfl
  have least : -(Int.pow 2 63) ≤ (0 : Int) := by decide
  exact .whole (by omega) (by omega)

theorem Exact.int32 (n : Int32) : (Json.whole n.toInt).Exact := by
  have least : -Int.pow 2 31 ≤ n.toInt := n.le_toInt
  have greatest : n.toInt < Int.pow 2 31 := n.toInt_lt
  have lower : -(Int.pow 2 63) ≤ -Int.pow 2 31 := by decide
  have upper : Int.pow 2 31 ≤ Int.pow 2 64 := by decide
  exact .whole (by omega) (by omega)

/-! ## Depths -/

/-- No item is deeper than all of them together. -/
theorem le_depthItems
    {item : Json}
    {items : List Json}
    (member : item ∈ items) :
    item.depth ≤ depthItems items := by
  induction items with
  | nil =>
      contradiction
  | cons first others inductionHypothesis =>
      rw [depthItems]
      rcases List.mem_cons.mp member with rfl | later
      · exact Nat.le_max_left _ _
      · exact Nat.le_trans (inductionHypothesis later) (Nat.le_max_right _ _)

/-- Items within a bound are within it together. -/
theorem depthItems_le
    {items : List Json}
    {bound : Nat}
    (shallow : ∀ item ∈ items, item.depth ≤ bound) :
    depthItems items ≤ bound := by
  induction items with
  | nil =>
      exact Nat.zero_le bound
  | cons first others inductionHypothesis =>
      rw [List.forall_mem_cons] at shallow
      rw [depthItems]
      exact Nat.max_le.mpr ⟨shallow.1, inductionHypothesis shallow.2⟩

/-- The keys of members do not count. -/
theorem depth_object_eq (members : List (String × Json)) :
    (object members).depth = (array (members.map Prod.snd)).depth := by
  have same : depthMembers members = depthItems (members.map Prod.snd) := by
    induction members with
    | nil =>
        rfl
    | cons member others inductionHypothesis =>
        rw [depthMembers, inductionHypothesis, List.map_cons, depthItems]
  exact congrArg Nat.succ same

/-- An item is less deep than its array. -/
theorem depth_lt_array
    {item : Json}
    {items : List Json}
    (member : item ∈ items) :
    item.depth < (array items).depth :=
  Nat.lt_succ_of_le (le_depthItems member)

/-- An array is at most one level deeper than its items. -/
theorem depth_array_le
    {items : List Json}
    {bound : Nat}
    (shallow : ∀ item ∈ items, item.depth ≤ bound) :
    (array items).depth ≤ bound + 1 :=
  Nat.succ_le_succ (depthItems_le shallow)

theorem depth_strings (names : List String) : (strings names).depth = 1 := by
  have flat : (array (names.map .string)).depth ≤ 0 + 1 :=
    depth_array_le (List.forall_mem_map.mpr fun _ _ => Nat.le_refl 0)
  have nested : 1 ≤ (array (names.map .string)).depth := by simp [depth]
  exact Nat.le_antisymm flat nested

/-- The value of a member is less deep than its object. -/
theorem depth_lt_object
    {member : String × Json}
    {members : List (String × Json)}
    (isMember : member ∈ members) :
    member.2.depth < (object members).depth := by
  rw [depth_object_eq]
  exact depth_lt_array (List.mem_map_of_mem isMember)

/-- An object is at most one level deeper than the values of its members. -/
theorem depth_object_le
    {members : List (String × Json)}
    {bound : Nat}
    (shallow : ∀ member ∈ members, member.2.depth ≤ bound) :
    (object members).depth ≤ bound + 1 := by
  rw [depth_object_eq]
  exact depth_array_le (List.forall_mem_map.mpr shallow)

/-- The brackets of an array take one level; those that are left suffice for the items. -/
theorem exists_inner_of_array
    {items : List Json}
    {levels : Nat}
    (shallow : (array items).depth < levels) :
    ∃ inner, levels = inner + 1 ∧ 0 < inner ∧ ∀ item ∈ items, item.depth < inner := by
  obtain ⟨inner, rfl⟩ := Nat.exists_eq_succ_of_ne_zero (Nat.ne_zero_of_lt shallow)
  have room : (array items).depth ≤ inner := Nat.le_of_lt_succ shallow
  exact ⟨inner, rfl, Nat.lt_of_lt_of_le (Nat.succ_pos _) room,
    fun item member => Nat.lt_of_lt_of_le (depth_lt_array member) room⟩

/-- An object within some levels leaves one level less to its members. -/
theorem exists_inner_of_object
    {members : List (String × Json)}
    {levels : Nat}
    (shallow : (object members).depth < levels) :
    ∃ inner, levels = inner + 1 ∧ 0 < inner ∧ ∀ member ∈ members, member.2.depth < inner := by
  rw [depth_object_eq] at shallow
  obtain ⟨inner, rfl, deeper, within⟩ := exists_inner_of_array shallow
  exact ⟨inner, rfl, deeper, List.forall_mem_map.mp within⟩

/-! ## Parts and canonical forms -/

/-- Every part of a value that contains no others satisfies a condition. -/
inductive Throughout (condition : Json → Prop) : Json → Prop where
  | scalar
      {value : Json}
      (flat : value.depth = 0)
      (holds : condition value) :
      Throughout condition value
  | array
      {items : List Json}
      (each : ∀ item ∈ items, Throughout condition item) :
      Throughout condition (.array items)
  | object
      {members : List (String × Json)}
      (each : ∀ member ∈ members, Throughout condition member.2) :
      Throughout condition (.object members)

/-- The whole numbers in a value fit into a word of 64 bits, with or without a sign. -/
def InRange (value : Json) : Prop :=
  value.Throughout fun part => ∀ n, part = .whole n → -(Int.pow 2 63) ≤ n ∧ n < Int.pow 2 64

/-- There is no floating number in a value. -/
def FloatFree (value : Json) : Prop :=
  value.Throughout fun part => ∀ number, part ≠ .floating number

theorem canonical_of_flat
    {value : Json}
    (flat : value.depth = 0) :
    value.canonical = value := by
  cases value with
  | array | object =>
      contradiction
  | _ =>
      rfl

namespace Throughout

variable
  {condition : Json → Prop}
  {value : Json}
  {items : List Json}
  {members : List (String × Json)}

/-- Of a value without levels only itself is to be looked at. -/
theorem holds_of_flat
    (throughout : value.Throughout condition)
    (flat : value.depth = 0) :
    condition value := by
  cases throughout with
  | scalar _ holds =>
      exact holds
  | array | object =>
      contradiction

theorem of_mem_array
    (throughout : (Json.array items).Throughout condition) :
    ∀ item ∈ items, item.Throughout condition := by
  cases throughout with
  | scalar flat _ =>
      contradiction
  | array each =>
      exact each

theorem of_mem_object
    (throughout : (Json.object members).Throughout condition) :
    ∀ member ∈ members, member.2.Throughout condition := by
  cases throughout with
  | scalar flat _ =>
      contradiction
  | object each =>
      exact each

/-- The canonical form has no other parts than the value. -/
theorem canonical
    (throughout : value.Throughout condition) :
    value.canonical.Throughout condition := by
  induction throughout with
  | scalar flat holds =>
      rw [canonical_of_flat flat]
      exact .scalar flat holds
  | @array items _ inductionHypothesis =>
      rw [Json.canonical, canonicalItems_eq_map]
      exact .array (List.forall_mem_map.mpr inductionHypothesis)
  | @object members _ inductionHypothesis =>
      rw [Json.canonical]
      refine .object fun member isMember => ?_
      obtain ⟨original, found, rfl⟩ := exists_of_mem_canonicalMembers isMember
      exact inductionHypothesis original found

/-- The canonical form of a value is not deeper than the value. -/
theorem depth_canonical_le
    (throughout : value.Throughout condition) :
    value.canonical.depth ≤ value.depth := by
  induction throughout with
  | scalar flat _ =>
      exact Nat.le_of_eq (congrArg depth (canonical_of_flat flat))
  | @array items _ inductionHypothesis =>
      rw [Json.canonical, canonicalItems_eq_map]
      refine depth_array_le (List.forall_mem_map.mpr fun item member => ?_)
      exact Nat.le_trans (inductionHypothesis item member)
        (Nat.le_of_lt_succ (depth_lt_array member))
  | @object members _ inductionHypothesis =>
      rw [Json.canonical]
      refine depth_object_le fun member isMember => ?_
      obtain ⟨original, found, rfl⟩ := exists_of_mem_canonicalMembers isMember
      exact Nat.le_trans (inductionHypothesis original found)
        (Nat.le_of_lt_succ (depth_lt_object found))

end Throughout

/-- A value is exact if its integers are in range and it has no floating number. -/
theorem exact_iff {value : Json} : value.Exact ↔ value.InRange ∧ value.FloatFree := by
  constructor
  · intro exact
    induction exact with
    | null | bool _ | string _ =>
        exact ⟨.scalar rfl nofun, .scalar rfl nofun⟩
    | whole least greatest =>
        refine ⟨.scalar rfl ?_, .scalar rfl nofun⟩
        rintro _ ⟨rfl⟩
        exact ⟨least, greatest⟩
    | array _ inductionHypothesis =>
        exact ⟨.array fun item member => (inductionHypothesis item member).1,
          .array fun item member => (inductionHypothesis item member).2⟩
    | object _ inductionHypothesis =>
        exact ⟨.object fun member isMember => (inductionHypothesis member isMember).1,
          .object fun member isMember => (inductionHypothesis member isMember).2⟩
  · rintro ⟨inRange, floatFree⟩
    induction inRange with
    | @scalar value flat holds =>
        have noFloat := floatFree.holds_of_flat flat
        cases value with
        | null =>
            exact .null
        | bool b =>
            exact .bool b
        | whole n =>
            exact .whole (holds n rfl).1 (holds n rfl).2
        | floating number =>
            exact absurd rfl (noFloat number)
        | string text =>
            exact .string text
        | array | object =>
            contradiction
    | array _ inductionHypothesis =>
        exact .array fun item member =>
          inductionHypothesis item member (floatFree.of_mem_array item member)
    | object _ inductionHypothesis =>
        exact .object fun member isMember =>
          inductionHypothesis member isMember (floatFree.of_mem_object member isMember)

/-- The canonical form of an exact value is exact. -/
theorem Exact.canonical
    {value : Json}
    (exact : value.Exact) :
    value.canonical.Exact := by
  obtain ⟨inRange, floatFree⟩ := exact_iff.mp exact
  exact exact_iff.mpr ⟨inRange.canonical, floatFree.canonical⟩

/-- The canonical form of an exact value is not deeper than the value. -/
theorem Exact.depth_canonical_le
    {value : Json}
    (exact : value.Exact) :
    value.canonical.depth ≤ value.depth :=
  (exact_iff.mp exact).1.depth_canonical_le

/-! ## Layouts -/

/-- Line breaks are gaps. -/
theorem Layout.isGap_lineBreak
    (layout : Layout)
    (level : Nat) :
    ∀ c ∈ layout.lineBreak level, Reader.isGap c = true := by
  cases layout with
  | compact =>
      simp [lineBreak]
  | indented =>
      simp only [lineBreak, List.mem_cons, List.mem_replicate, forall_eq_or_imp]
      exact ⟨rfl, by rintro _ ⟨_, rfl⟩; rfl⟩

/-- Behind an item there is nothing that could belong to a number. -/
theorem Layout.stops_lineBreak
    (layout : Layout)
    (level : Nat)
    {c : Char}
    (mark : c = ',' ∨ c = ']' ∨ c = '\x7d')
    (rest : List Char) :
    Reader.Stops (layout.lineBreak level ++ c :: rest) := by
  cases layout with
  | compact =>
      refine Reader.stops_cons ?_ rest
      rcases mark with rfl | rfl | rfl <;> simp
  | indented =>
      exact Reader.stops_cons (by simp) _

theorem stops_writeItems
    (layout : Layout)
    (level : Nat)
    (items : List Json)
    (rest : List Char) :
    Reader.Stops (writeItems layout level items ++ rest) := by
  cases items with
  | nil =>
      rw [writeItems, List.append_assoc]
      exact layout.stops_lineBreak level (by simp) rest
  | cons item others =>
      exact Reader.stops_cons (by simp) _

theorem stops_writeMembers
    (layout : Layout)
    (level : Nat)
    (members : List (String × Json))
    (rest : List Char) :
    Reader.Stops (writeMembers layout level members ++ rest) := by
  cases members with
  | nil =>
      rw [writeMembers, List.append_assoc]
      exact layout.stops_lineBreak level (by simp) rest
  | cons member others =>
      exact Reader.stops_cons (by simp) _

/-- The text of a value begins with a token that is no closing bracket. -/
theorem Exact.write_head
    {value : Json}
    (exact : value.Exact)
    (layout : Layout)
    (level : Nat) :
    ∃ c rest, value.write layout level = c :: rest ∧ Reader.isGap c = false ∧ c ≠ ']' := by
  cases exact with
  | null =>
      exact ⟨_, _, by rw [write], by decide, by decide⟩
  | bool b =>
      cases b <;> exact ⟨_, _, by rw [write], by decide, by decide⟩
  | @whole n _ _ =>
      obtain ⟨c, rest, text, ⟨rfl, _⟩ | ⟨digit, _⟩⟩ := Reader.wholeText_head n
      · exact ⟨'-', rest, by rw [write, text], by decide, by decide⟩
      · refine ⟨c, rest, by rw [write, text], Reader.isGap_of_isDigit digit, ?_⟩
        rintro rfl
        exact absurd digit (by decide)
  | string text =>
      exact ⟨_, _, by rw [write]; rfl, by decide, by decide⟩
  | @array items _ =>
      cases items <;> exact ⟨_, _, by rw [write]; try rfl, by decide, by decide⟩
  | @object members _ =>
      cases members <;> exact ⟨_, _, by rw [write]; try rfl, by decide, by decide⟩

/-- Only `null` is written with its first letter. -/
theorem Exact.write_head_of_present
    {value : Json}
    (exact : value.Exact)
    (present : value ≠ .null)
    (layout : Layout)
    (level : Nat) :
    ∃ c rest, value.write layout level = c :: rest ∧ Reader.isGap c = false ∧ c ≠ 'n' := by
  obtain ⟨c, rest, text, token, -⟩ := exact.write_head layout level
  refine ⟨c, rest, text, token, ?_⟩
  rintro rfl
  cases exact with
  | null =>
      exact present rfl
  | bool b =>
      cases b <;> simp [write] at text
  | @whole n _ _ =>
      obtain ⟨c, others, numeral, sign⟩ := Reader.wholeText_head n
      rw [write, numeral, List.cons.injEq] at text
      obtain ⟨rfl, -⟩ := text
      rcases sign with ⟨minus, -⟩ | ⟨digit, -⟩
      · exact absurd minus (by decide)
      · exact absurd digit (by decide)
  | string =>
      simp [write, stringText] at text
  | @array items _ =>
      cases items <;> simp [write] at text
  | @object members _ =>
      cases members <;> simp [write] at text

/-- An array is written with its first item behind the bracket and the others behind that. -/
theorem write_array_cons
    (layout : Layout)
    (level : Nat)
    (item : Json)
    (others : List Json) :
    (array (item :: others)).write layout level =
      '[' :: (layout.lineBreak (level + 1) ++
        (item.write layout (level + 1) ++ writeItems layout level others)) := by
  simp [write]

/-- An object is written as its first member and the others behind it. -/
theorem write_object_cons
    (layout : Layout)
    (level : Nat)
    (member : String × Json)
    (others : List (String × Json)) :
    (object (member :: others)).write layout level =
      '\x7b' :: (layout.lineBreak (level + 1) ++
        (stringText member.1 ++ (layout.colon ++
          (member.2.write layout (level + 1) ++ writeMembers layout level others)))) := by
  simp [write]

/-! ## Items and members -/

section Loops

variable
  {layout : Layout}
  {level : Nat}

/-- A reader of items takes the text of a value wherever `take` takes the value. -/
def ReadsItem
    (layout : Layout)
    (level : Nat)
    (item : σ → Reader σ)
    (take : σ → Json → Except ε σ)
    (value : Json) : Prop :=
  value.Exact ∧
    ∀ before after rest,
      take before value = .ok after →
        Reader.Stops rest →
          item before (value.write layout level ++ rest) = .ok (after, rest)

/-- The items behind the first are read one after the other. -/
theorem itemLoop_writeItems
    {item : σ → Reader σ}
    {take : σ → Json → Except ε σ}
    {items : List Json}
    {start final : σ}
    {fuel : Nat}
    (reads : ∀ value ∈ items, ReadsItem layout (level + 1) item take value)
    (taken : items.foldlM take start = .ok final)
    (enough : items.length < fuel)
    (rest : List Char) :
    Reader.itemLoop item fuel false start (writeItems layout level items ++ rest) =
      .ok (final, ']' :: rest) := by
  induction items generalizing start fuel with
  | nil =>
      obtain ⟨fuel, rfl⟩ := Nat.exists_eq_succ_of_ne_zero (Nat.ne_zero_of_lt enough)
      obtain rfl : start = final := by simpa [pure, Except.pure] using taken
      rw [writeItems, List.append_assoc]
      exact Reader.itemLoop_of_closing
        (Reader.hasItem_closing (layout.isGap_lineBreak level) rest)
  | cons value others inductionHypothesis =>
      obtain ⟨fuel, rfl⟩ := Nat.exists_eq_succ_of_ne_zero (Nat.ne_zero_of_lt enough)
      rw [List.foldlM_cons, Reader.bind_eq_ok] at taken
      obtain ⟨next, first, later⟩ := taken
      obtain ⟨exact, read⟩ := reads value List.mem_cons_self
      have readFirst := read start next _ first (stops_writeItems layout level others rest)
      obtain ⟨c, more, text, token, notClosing⟩ := exact.write_head layout (level + 1)
      have found :=
        Reader.hasItem_next (layout.isGap_lineBreak (level + 1)) token notClosing
          (more ++ (writeItems layout level others ++ rest))
      rw [writeItems]
      simp only [text, List.cons_append, List.append_assoc] at readFirst found ⊢
      rw [Reader.itemLoop_of_item found readFirst]
      exact inductionHypothesis
        (fun other member => reads other (List.mem_cons_of_mem value member)) later
        (Nat.lt_of_succ_lt_succ enough)

theorem length_lt_writeItems
    (layout : Layout)
    (level : Nat)
    (items : List Json) :
    items.length < (writeItems layout level items).length := by
  induction items with
  | nil =>
      simp [writeItems]
  | cons value others inductionHypothesis =>
      simp only [writeItems, List.cons_append, List.length_cons, List.length_append]
      omega

/-- The items of an array are read one after the other, up to the closing bracket. -/
theorem items_write
    {item : σ → Reader σ}
    {take : σ → Json → Except ε σ}
    {items : List Json}
    {start final : σ}
    (reads : ∀ value ∈ items, ReadsItem layout (level + 1) item take value)
    (taken : items.foldlM take start = .ok final)
    (rest : List Char) :
    ∃ inside,
      (array items).write layout level = '[' :: inside ∧
        Reader.items item start (inside ++ rest) = .ok (final, rest) := by
  cases items with
  | nil =>
      obtain rfl : start = final := by simpa [pure, Except.pure] using taken
      have closing : Reader.hasItem true (']' :: rest) = .ok (false, ']' :: rest) :=
        Reader.hasItem_closing (List.forall_mem_nil _) rest
      refine ⟨_, by rw [write], ?_⟩
      simp [Reader.items, Reader.itemLoop_of_closing closing]
  | cons value others =>
      refine ⟨_, write_array_cons layout level value others, ?_⟩
      rw [List.foldlM_cons, Reader.bind_eq_ok] at taken
      obtain ⟨next, first, later⟩ := taken
      obtain ⟨exact, read⟩ := reads value List.mem_cons_self
      have readFirst := read start next _ first (stops_writeItems layout level others rest)
      have long := length_lt_writeItems layout level others
      obtain ⟨c, more, text, token, notClosing⟩ := exact.write_head layout (level + 1)
      have found :=
        Reader.hasItem_first (layout.isGap_lineBreak (level + 1)) token notClosing
          (more ++ (writeItems layout level others ++ rest))
      have readLater {fuel : Nat} (enough : others.length < fuel) :=
        itemLoop_writeItems
          (fun other member => reads other (List.mem_cons_of_mem value member)) later enough rest
      simp only [text, List.cons_append, List.append_assoc] at readFirst found ⊢
      simp only [Reader.items, Reader.bind_apply, Reader.rounds_apply, Reader.ok_bind,
        Reader.itemLoop_of_item found readFirst]
      rw [readLater (by simp only [List.length_append, List.length_cons]; omega)]
      rfl

/-- A reader of members takes, from behind the quote before its key, the text of a member wherever
`take` takes the member. -/
def ReadsMember
    (layout : Layout)
    (level : Nat)
    (read : σ → Reader σ)
    (take : σ → String × Json → Except ε σ)
    (member : String × Json) : Prop :=
  ∀ before after rest,
    take before member = .ok after →
      Reader.Stops rest →
        read before (member.1.toList.flatMap escaped ++
            '"' :: (layout.colon ++ (member.2.write layout level ++ rest))) =
          .ok (after, rest)

/-- A reader of members leads from a state to a state over the texts of members, each taken from
behind the quote before its key. -/
inductive ReadsMembers (layout : Layout) (level : Nat) (read : σ → Reader σ) :
    List (String × Json) → σ → σ → Prop where
  | nil
      {state : σ} :
      ReadsMembers layout level read [] state state
  | cons
      {member : String × Json}
      {others : List (String × Json)}
      {before between after : σ} :
      (∀ rest,
        Reader.Stops rest →
          read before (member.1.toList.flatMap escaped ++
              '"' :: (layout.colon ++ (member.2.write layout level ++ rest))) =
            .ok (between, rest)) →
      ReadsMembers layout level read others between after →
      ReadsMembers layout level read (member :: others) before after

/-- Members that can be read one by one can be read together. -/
theorem readsMembers_of_foldlM
    {read : σ → Reader σ}
    {take : σ → String × Json → Except ε σ}
    {members : List (String × Json)}
    {start final : σ}
    (reads : ∀ member ∈ members, ReadsMember layout level read take member)
    (taken : members.foldlM take start = .ok final) :
    ReadsMembers layout level read members start final := by
  induction members generalizing start with
  | nil =>
      obtain rfl : start = final := by simpa [pure, Except.pure] using taken
      exact .nil
  | cons member others inductionHypothesis =>
      rw [List.foldlM_cons, Reader.bind_eq_ok] at taken
      obtain ⟨next, first, later⟩ := taken
      rw [List.forall_mem_cons] at reads
      exact .cons (fun rest stops => reads.1 start next rest first stops)
        (inductionHypothesis reads.2 later)

/-- The members behind the first are read one after the other. -/
theorem memberLoop_writeMembers
    {read : σ → Reader σ}
    {members : List (String × Json)}
    {start final : σ}
    {fuel : Nat}
    (reads : ReadsMembers layout (level + 1) read members start final)
    (enough : members.length < fuel)
    (rest : List Char) :
    Reader.memberLoop read fuel false start (writeMembers layout level members ++ rest) =
      .ok (final, '\x7d' :: rest) := by
  induction reads generalizing fuel with
  | nil =>
      obtain ⟨fuel, rfl⟩ := Nat.exists_eq_succ_of_ne_zero (Nat.ne_zero_of_lt enough)
      rw [writeMembers, List.append_assoc]
      exact Reader.memberLoop_of_closing
        (Reader.hasMember_closing (layout.isGap_lineBreak level) rest)
  | @cons member others _ _ _ reads _ inductionHypothesis =>
      obtain ⟨fuel, rfl⟩ := Nat.exists_eq_succ_of_ne_zero (Nat.ne_zero_of_lt enough)
      have readFirst := reads _ (stops_writeMembers layout level others rest)
      have found := Reader.hasMember_next (layout.isGap_lineBreak (level + 1))
      rw [writeMembers, stringText]
      simp only [List.cons_append, List.append_assoc, List.nil_append]
      rw [Reader.memberLoop_of_member (found _) readFirst]
      exact inductionHypothesis (Nat.lt_of_succ_lt_succ enough)

theorem length_lt_writeMembers
    (layout : Layout)
    (level : Nat)
    (members : List (String × Json)) :
    members.length < (writeMembers layout level members).length := by
  induction members with
  | nil =>
      simp [writeMembers]
  | cons member others inductionHypothesis =>
      simp only [writeMembers, List.cons_append, List.length_cons, List.length_append]
      omega

/-- The members of an object are read one after the other, up to the closing brace. -/
theorem members_write
    {read : σ → Reader σ}
    {members : List (String × Json)}
    {start final : σ}
    (reads : ReadsMembers layout (level + 1) read members start final)
    (rest : List Char) :
    ∃ inside,
      (object members).write layout level = '\x7b' :: inside ∧
        Reader.members read start (inside ++ rest) = .ok (final, rest) := by
  cases reads with
  | nil =>
      have closing : Reader.hasMember true ('\x7d' :: rest) = .ok (false, '\x7d' :: rest) :=
        Reader.hasMember_closing (List.forall_mem_nil _) rest
      refine ⟨_, by rw [write], ?_⟩
      simp [Reader.members, Reader.memberLoop_of_closing closing]
  | @cons member others _ _ _ reads later =>
      refine ⟨_, write_object_cons layout level member others, ?_⟩
      have readFirst := reads _ (stops_writeMembers layout level others rest)
      have long := length_lt_writeMembers layout level others
      have found := Reader.hasMember_first (layout.isGap_lineBreak (level + 1))
      have readLater {fuel : Nat} (enough : others.length < fuel) :=
        memberLoop_writeMembers later enough rest
      simp only [stringText, List.cons_append, List.append_assoc, List.nil_append,
        Reader.members, Reader.bind_apply, Reader.rounds_apply, Reader.ok_bind,
        Reader.memberLoop_of_member (found _) readFirst]
      rw [readLater (by simp only [List.length_append, List.length_cons]; omega)]
      rfl

end Loops

/-! ## Values -/

/-- Put in front whatever comes. -/
def gather (found : List α) (a : α) : Except Empty (List α) := .ok (a :: found)

theorem foldlM_gather (items found : List α) :
    items.foldlM gather found = .ok (items.reverse ++ found) := by
  induction items generalizing found with
  | nil =>
      rfl
  | cons item others inductionHypothesis =>
      rw [List.foldlM_cons, gather, Reader.ok_bind, inductionHypothesis, List.reverse_cons,
        List.append_assoc]
      rfl

namespace Reader

theorem colon_append
    (layout : Layout)
    (rest : List Char) :
    ∃ gaps,
      (∀ c ∈ gaps, isGap c = true) ∧ colon (layout.colon ++ rest) = .ok ((), gaps ++ rest) := by
  cases layout with
  | compact =>
      exact ⟨[], List.forall_mem_nil _, by simp [colon, Layout.colon, isGap]⟩
  | indented =>
      exact ⟨[' '], List.forall_mem_singleton.mpr rfl, by simp [colon, Layout.colon, isGap]⟩

theorem scalar_append
    {gaps : List Char}
    (blank : ∀ c ∈ gaps, isGap c = true)
    (text : List Char) :
    scalar (gaps ++ text) = scalar text := by
  simp [scalar, peekToken?_append blank]

/-- White space before a value does not matter. -/
theorem any_append
    {gaps : List Char}
    (blank : ∀ c ∈ gaps, isGap c = true)
    {levels : Nat}
    (some : 0 < levels)
    (text : List Char) :
    any levels (gaps ++ text) = any levels text := by
  obtain ⟨levels, rfl⟩ := Nat.exists_eq_succ_of_ne_zero (Nat.ne_of_gt some)
  simp [any, scalar_append blank]

theorem openBracket_cons
    {levels : Nat}
    (some : 0 < levels)
    (c : Char)
    (rest : List Char) :
    openBracket levels (c :: rest) = .ok ((), rest) := by
  simp [openBracket, Nat.ne_of_gt some]

/-- A value that contains no others is read back from its text. -/
theorem scalar_write
    {value : Json}
    (exact : value.Exact)
    (flat : value.depth = 0)
    (layout : Layout)
    (level : Nat)
    {rest : List Char}
    (stops : Stops rest) :
    scalar (value.write layout level ++ rest) = .ok (value, rest) := by
  cases exact with
  | null =>
      simp [write, scalar, isGap, literal]
  | bool b =>
      cases b <;> simp [write, scalar, isGap, literal]
  | whole least greatest =>
      rw [write, scalar_wholeText stops least greatest]
  | string text =>
      simp [write, scalar, isGap, stringText, string_append]
  | array | object =>
      simp [depth] at flat

/-- A value is read back from its text. -/
theorem any_write
    {value : Json}
    (exact : value.Exact)
    (layout : Layout)
    {level levels : Nat}
    (shallow : value.depth < levels)
    {rest : List Char}
    (stops : Stops rest) :
    any levels (value.write layout level ++ rest) = .ok (value, rest) := by
  induction exact generalizing level levels rest with
  | null =>
      obtain ⟨levels, rfl⟩ := Nat.exists_eq_succ_of_ne_zero (Nat.ne_zero_of_lt shallow)
      simp [any, scalar_write .null rfl layout level stops]
  | bool b =>
      obtain ⟨levels, rfl⟩ := Nat.exists_eq_succ_of_ne_zero (Nat.ne_zero_of_lt shallow)
      simp [any, scalar_write (.bool b) rfl layout level stops]
  | whole least greatest =>
      obtain ⟨levels, rfl⟩ := Nat.exists_eq_succ_of_ne_zero (Nat.ne_zero_of_lt shallow)
      simp [any, scalar_write (.whole least greatest) rfl layout level stops]
  | string text =>
      obtain ⟨levels, rfl⟩ := Nat.exists_eq_succ_of_ne_zero (Nat.ne_zero_of_lt shallow)
      simp [any, scalar_write (.string text) rfl layout level stops]
  | @array items exact inductionHypothesis =>
      obtain ⟨levels, rfl, deeper, within⟩ := exists_inner_of_array shallow
      have reads :
          ∀ item ∈ items,
            ReadsItem layout (level + 1) (fun found => return (← any levels) :: found) gather
              item := by
        intro item member
        refine ⟨exact item member, ?_⟩
        rintro before _ rest ⟨rfl⟩ stops
        have read : any levels (item.write layout (level + 1) ++ rest) = .ok (item, rest) :=
          inductionHypothesis item member (within item member) stops
        simp [read]
      obtain ⟨inside, text, read⟩ := items_write reads (foldlM_gather items []) rest
      simp [-bind_pure_comp, any, scalar, isGap, text, openBracket_cons deeper, read]
  | @object members exact inductionHypothesis =>
      obtain ⟨levels, rfl, deeper, within⟩ := exists_inner_of_object shallow
      have reads :
          ∀ member ∈ members,
            ReadsMember layout (level + 1)
              (fun found => do
                let key ← string
                colon
                return (key, ← any levels) :: found)
              gather member := by
        rintro ⟨key, value⟩ member before _ rest ⟨rfl⟩ stops
        obtain ⟨gaps, blank, passed⟩ :=
          colon_append layout (value.write layout (level + 1) ++ rest)
        have read : any levels (value.write layout (level + 1) ++ rest) = .ok (value, rest) :=
          inductionHypothesis (key, value) member (within (key, value) member) stops
        simp [string_append, passed, any_append blank deeper, read]
      obtain ⟨inside, text, read⟩ :=
        members_write (readsMembers_of_foldlM reads (foldlM_gather members [])) rest
      simp [-bind_pure_comp, any, scalar, isGap, text, openBracket_cons deeper, read]

end Reader

/-- A text that is read up to its end is read as a whole. -/
theorem Reader.wholeText_of_read
    {value : Reader α}
    {text : List Char}
    {a : α}
    (read : value text = .ok (a, [])) :
    wholeText value text = .ok a := by
  have ended : peekToken? [] = .ok (none, []) := rfl
  simp only [wholeText, bind_apply, ok_bind, read, ended, pure_apply]
  rfl

/-- A value that is not too deep is read back from its whole text. -/
theorem ofText_write
    {value : Json}
    (exact : value.Exact)
    (shallow : value.depth < Reader.levelLimit)
    (layout : Layout) :
    ofText (value.write layout 0) = .ok value := by
  have read : Reader.any Reader.levelLimit (value.write layout 0 ++ []) = .ok (value, []) :=
    Reader.any_write exact layout shallow Reader.stops_nil
  rw [List.append_nil] at read
  exact Reader.wholeText_of_read read

end Json

end VerifyPipeline
