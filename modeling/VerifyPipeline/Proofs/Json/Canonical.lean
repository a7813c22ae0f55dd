import VerifyPipeline.Json.Basic

namespace VerifyPipeline

/-!
# Canonical forms

The canonical form of an object has the same keys, each once, and for each key the canonical form of
the member that counts.
-/

namespace Json

variable
  {key name : String}
  {value : Json}
  {members : List (String × Json)}

/-! ## Looking up members -/

/-- Of two members with one key the later one counts. -/
theorem lookup?_cons
    (key : String)
    (member : String × Json)
    (others : List (String × Json)) :
    lookup? key (member :: others) =
      (lookup? key others).or (if member.1 = key then some member.2 else none) := by
  rw [lookup?]
  cases lookup? key others <;> rfl

/-- Members behind are found before those in front. -/
theorem lookup?_append
    (key : String)
    (first second : List (String × Json)) :
    lookup? key (first ++ second) = (lookup? key second).or (lookup? key first) := by
  induction first with
  | nil =>
      simp [lookup?]
  | cons member others inductionHypothesis =>
      rw [List.cons_append, lookup?_cons, inductionHypothesis, lookup?_cons, Option.or_assoc]

/-- Nothing is found under a key that no member has. -/
theorem lookup?_eq_none_iff : lookup? key members = none ↔ key ∉ members.map Prod.fst := by
  induction members with
  | nil =>
      simp [lookup?]
  | cons member others inductionHypothesis =>
      rw [lookup?_cons, Option.or_eq_none_iff, inductionHypothesis, List.map_cons, List.mem_cons,
        not_or, and_comm]
      simp [eq_comm]

/-! ## Members in order -/

/-- A member is inserted among the others, of which none is lost. -/
theorem insertMember_perm
    (key : String)
    (value : Json)
    (members : List (String × Json)) :
    (insertMember key value members).Perm ((key, value) :: members) := by
  induction members with
  | nil =>
      exact .refl _
  | cons member others inductionHypothesis =>
      unfold insertMember
      split
      · exact .refl _
      · exact (inductionHypothesis.cons member).trans (.swap _ _ others)

/-- A member with a key of its own is found wherever it is put. -/
theorem lookup?_insertMember
    (fresh : name ∉ members.map Prod.fst) :
    lookup? key (insertMember name value members) =
      if name = key then some value else lookup? key members := by
  induction members with
  | nil =>
      rfl
  | cons member others inductionHypothesis =>
      unfold insertMember
      split
      · rw [lookup?_cons]
        by_cases same : name = key
        · subst same
          simp [lookup?_eq_none_iff.mpr fresh]
        · simp [same]
      · rw [List.map_cons, List.mem_cons, not_or] at fresh
        rw [lookup?_cons, inductionHypothesis fresh.2, lookup?_cons]
        by_cases same : name = key <;> simp [same]

/-! ## The canonical form of an object -/

theorem any_key_eq_true_iff :
    (members.any fun entry => entry.1 = key) = true ↔ key ∈ members.map Prod.fst := by
  simp only [List.any_eq_true, decide_eq_true_eq, List.mem_map]

/-- A key has the same value after the members have been put in order, in canonical form.  A member
is only dropped if a later one has its key. -/
theorem lookup?_canonicalMembers
    (key : String)
    (members : List (String × Json)) :
    lookup? key (canonicalMembers members) = (lookup? key members).map canonical := by
  induction members with
  | nil =>
      rfl
  | cons member others inductionHypothesis =>
      rw [canonicalMembers, lookup?_cons]
      split
      case isTrue repeated =>
        rw [any_key_eq_true_iff] at repeated
        rw [inductionHypothesis]
        by_cases same : member.1 = key
        · subst same
          have found : lookup? member.1 others ≠ none := by
            intro missing
            have absent : lookup? member.1 (canonicalMembers others) = none := by
              rw [inductionHypothesis, missing]
              rfl
            exact lookup?_eq_none_iff.mp absent repeated
          obtain ⟨value, found⟩ := Option.ne_none_iff_exists'.mp found
          simp [found]
        · simp [same]
      case isFalse fresh =>
        rw [any_key_eq_true_iff] at fresh
        rw [lookup?_insertMember fresh, inductionHypothesis]
        by_cases same : member.1 = key
        · subst same
          rw [← lookup?_eq_none_iff, inductionHypothesis, Option.map_eq_none_iff] at fresh
          simp [fresh]
        · simp [same]

/-- What an object has under a key, its canonical form has in canonical form. -/
theorem get?_canonical
    (value : Json)
    (key : String) :
    value.canonical.get? key = (value.get? key).map canonical := by
  cases value with
  | object members =>
      exact lookup?_canonicalMembers key members
  | _ =>
      rfl

/-- The canonical members have different keys. -/
theorem nodup_canonicalMembers (members : List (String × Json)) :
    ((canonicalMembers members).map Prod.fst).Nodup := by
  induction members with
  | nil =>
      exact List.nodup_nil
  | cons member others inductionHypothesis =>
      rw [canonicalMembers]
      split
      case isTrue => exact inductionHypothesis
      case isFalse fresh =>
        rw [any_key_eq_true_iff] at fresh
        rw [((insertMember_perm _ _ _).map Prod.fst).nodup_iff]
        exact List.nodup_cons.mpr ⟨fresh, inductionHypothesis⟩

/-! ## The canonical form of a canonical form -/

/-- Members in increasing order of their keys. -/
def Ordered (members : List (String × Json)) : Prop :=
  members.Pairwise fun first second => first.1 < second.1

/-- A member is inserted where its key belongs. -/
theorem ordered_insertMember
    (ordered : Ordered members)
    (fresh : key ∉ members.map Prod.fst)
    (value : Json) :
    Ordered (insertMember key value members) := by
  induction members with
  | nil =>
      simp [insertMember, Ordered]
  | cons member others inductionHypothesis =>
      obtain ⟨least, ordered⟩ := List.pairwise_cons.mp ordered
      rw [List.map_cons, List.mem_cons, not_or] at fresh
      unfold insertMember
      split
      · rename_i before
        refine List.pairwise_cons.mpr ⟨?_, List.pairwise_cons.mpr ⟨least, ordered⟩⟩
        refine List.forall_mem_cons.mpr ⟨before, fun other isOther => ?_⟩
        exact String.lt_trans before (least other isOther)
      · rename_i notBefore
        have after : member.1 < key :=
          String.not_le.mp fun notAfter =>
            fresh.1 (String.le_antisymm (String.not_lt.mp notBefore) notAfter).symm
        refine List.pairwise_cons.mpr ⟨fun other isOther => ?_, inductionHypothesis ordered fresh.2⟩
        rcases List.mem_cons.mp ((insertMember_perm key value others).mem_iff.mp isOther)
          with rfl | later
        · exact after
        · exact least other later

/-- The canonical members are in the order of their keys. -/
theorem ordered_canonicalMembers (members : List (String × Json)) :
    Ordered (canonicalMembers members) := by
  induction members with
  | nil =>
      exact List.Pairwise.nil
  | cons member others inductionHypothesis =>
      rw [canonicalMembers]
      split
      case isTrue => exact inductionHypothesis
      case isFalse fresh =>
        rw [any_key_eq_true_iff] at fresh
        exact ordered_insertMember inductionHypothesis fresh _

/-- Members in order whose values are canonical are canonical. -/
theorem canonicalMembers_of_ordered
    (ordered : Ordered members)
    (canonical : ∀ member ∈ members, member.2.canonical = member.2) :
    canonicalMembers members = members := by
  induction members with
  | nil =>
      rfl
  | cons member others inductionHypothesis =>
      obtain ⟨least, ordered⟩ := List.pairwise_cons.mp ordered
      rw [List.forall_mem_cons] at canonical
      have fresh : ¬ (others.any fun entry => entry.1 = member.1) = true := by
        rw [any_key_eq_true_iff, List.mem_map]
        rintro ⟨other, isOther, same⟩
        exact String.lt_irrefl _ (same ▸ least other isOther)
      rw [canonicalMembers, inductionHypothesis ordered canonical.2, if_neg fresh, canonical.1]
      cases others with
      | nil =>
          rfl
      | cons next rest =>
          rw [insertMember, if_pos (least next List.mem_cons_self)]

theorem canonicalItems_eq_map (items : List Json) :
    canonicalItems items = items.map canonical := by
  induction items with
  | nil =>
      rfl
  | cons item others inductionHypothesis =>
      rw [canonicalItems, inductionHypothesis, List.map_cons]

/-- Every member of a canonical form is the canonical form of a member. -/
theorem exists_of_mem_canonicalMembers
    {member : String × Json}
    (isMember : member ∈ canonicalMembers members) :
    ∃ original ∈ members, member = (original.1, original.2.canonical) := by
  induction members with
  | nil =>
      contradiction
  | cons first others inductionHypothesis =>
      rw [canonicalMembers] at isMember
      split at isMember
      case isTrue =>
        obtain ⟨original, found, same⟩ := inductionHypothesis isMember
        exact ⟨original, List.mem_cons_of_mem _ found, same⟩
      case isFalse =>
        rcases List.mem_cons.mp ((insertMember_perm _ _ _).mem_iff.mp isMember) with rfl | later
        · exact ⟨first, List.mem_cons_self, rfl⟩
        · obtain ⟨original, found, same⟩ := inductionHypothesis later
          exact ⟨original, List.mem_cons_of_mem _ found, same⟩

mutual

/-- What is canonical stays as it is. -/
theorem canonical_canonical : (value : Json) → value.canonical.canonical = value.canonical
  | .null | .bool _ | .whole _ | .floating _ | .string _ => rfl
  | .array items => by
    rw [canonical, canonical, canonicalItems_canonicalItems]
  | .object members => by
    rw [canonical, canonical,
      canonicalMembers_of_ordered (ordered_canonicalMembers members)
        (canonical_of_mem_canonicalMembers members)]

theorem canonicalItems_canonicalItems :
    (items : List Json) → canonicalItems (canonicalItems items) = canonicalItems items
  | [] => rfl
  | item :: rest => by
    rw [canonicalItems, canonicalItems, canonical_canonical item,
      canonicalItems_canonicalItems rest]

/-- The values of canonical members are canonical. -/
theorem canonical_of_mem_canonicalMembers :
    (members : List (String × Json)) →
      ∀ member ∈ canonicalMembers members, member.2.canonical = member.2
  | [] => List.forall_mem_nil _
  | (key, value) :: rest => by
    have later := canonical_of_mem_canonicalMembers rest
    rw [canonicalMembers]
    split
    · exact later
    · intro member isMember
      rcases List.mem_cons.mp ((insertMember_perm _ _ _).mem_iff.mp isMember) with rfl | isLater
      · exact canonical_canonical value
      · exact later member isLater

end

end Json

end VerifyPipeline
