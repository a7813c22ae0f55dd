import VerifyPipeline.Proofs.Json.Values

namespace VerifyPipeline

/-!
# The bounds of what is read

Whatever a text spells, a value that is read from it is not nested deeper than the reader goes, and
its whole numbers fit into a word: longer ones become floating numbers.  So a value that is read is
exact if there are no floating numbers in it.
-/

namespace Json

/-- A value is nested less deeply than so many levels, and its whole numbers fit into a word. -/
structure Within (levels : Nat) (value : Json) : Prop where
  inRange : value.InRange
  shallow : value.depth < levels

variable
  {levels : Nat}
  {value : Json}

/-- The canonical form of a value is no deeper than the value. -/
theorem Within.canonical
    (within : value.Within levels) :
    value.canonical.Within levels where
  inRange := within.inRange.canonical
  shallow := Nat.lt_of_le_of_lt within.inRange.depth_canonical_le within.shallow

/-- The members of an object have one level less. -/
theorem Within.of_mem_object
    {members : List (String × Json)}
    (within : (object members).Within (levels + 1)) :
    ∀ member ∈ members, member.2.Within levels := by
  intro member isMember
  refine ⟨within.inRange.of_mem_object member isMember, ?_⟩
  exact Nat.lt_of_lt_of_le (depth_lt_object isMember) (Nat.le_of_lt_succ within.shallow)

/-- An array is one level deeper than its items. -/
theorem within_array
    {items : List Json}
    (deeper : 0 < levels)
    (each : ∀ item ∈ items, item.Within levels) :
    (array items).Within (levels + 1) where
  inRange := .array fun item member => (each item member).inRange
  shallow := by
    obtain ⟨levels, rfl⟩ := Nat.exists_eq_succ_of_ne_zero (Nat.ne_of_gt deeper)
    exact Nat.lt_succ_of_le
      (depth_array_le fun item member => Nat.le_of_lt_succ (each item member).shallow)

/-- An object is one level deeper than the values of its members. -/
theorem within_object
    {members : List (String × Json)}
    (deeper : 0 < levels)
    (each : ∀ member ∈ members, member.2.Within levels) :
    (object members).Within (levels + 1) where
  inRange := .object fun member isMember => (each member isMember).inRange
  shallow := by
    rw [depth_object_eq]
    refine (within_array deeper (List.forall_mem_map.mpr each)).shallow

/-- A value without others inside, whose whole numbers fit into a word. -/
structure Part (value : Json) : Prop where
  flat : value.depth = 0
  inRange : value.InRange

/-- What has no level below it is within any bound. -/
theorem Part.within
    (part : value.Part)
    (deeper : 0 < levels) :
    value.Within levels :=
  ⟨part.inRange, part.flat ▸ deeper⟩

/-- A value without others inside is a part, unless it is a whole number. -/
theorem part_of_not_whole
    (flat : value.depth = 0)
    (notWhole : ∀ n, value ≠ .whole n) :
    value.Part :=
  ⟨flat, .scalar flat fun n isWhole => absurd isWhole (notWhole n)⟩

/-- An integer that fits into a machine word is a part of a value. -/
theorem part_whole
    {n : Int}
    (least : -(Int.pow 2 63) ≤ n)
    (greatest : n < Int.pow 2 64) :
    (whole n).Part := by
  refine ⟨rfl, .scalar rfl ?_⟩
  rintro _ ⟨rfl⟩
  exact ⟨least, greatest⟩

theorem part_neg
    {n : Nat}
    (small : n ≤ Nat.pow 2 63) :
    (whole (-n)).Part := by
  have limit : ((Nat.pow 2 63 : Nat) : Int) = Int.pow 2 63 := rfl
  have positive : 0 < Int.pow 2 64 := by decide
  exact part_whole (by omega) (by omega)

theorem part_count
    {n : Nat}
    (small : n ≤ Reader.significandLimit) :
    (whole n).Part := by
  have limit : (Reader.significandLimit : Int) = Int.pow 2 64 - 1 := rfl
  have negative : -(Int.pow 2 63) ≤ 0 := by decide
  exact part_whole (by omega) (by omega)

namespace Reader

/-! ## What a reader ensures -/

/-- Everything that a reader comes to has a property. -/
def Ensures (reader : Reader α) (holds : α → Prop) : Prop :=
  ∀ text a rest, reader text = .ok (a, rest) → holds a

variable
  {reader : Reader α}
  {next : α → Reader β}
  {middle : α → Prop}
  {holds : β → Prop}

theorem ensures_pure
    {b : β}
    (true : holds b) :
    (pure b : Reader β).Ensures holds := by
  rintro _ _ _ ⟨rfl⟩
  exact true

/-- A reader that fails ensures anything. -/
theorem ensures_failAtNext (cause : Cause) : (failAtNext cause : Reader β).Ensures holds :=
  nofun

theorem ensures_failHere (cause : Cause) : (failHere cause : Reader β).Ensures holds :=
  nofun

/-- What the first reader ensures is what the second one may rely on. -/
theorem Ensures.bind
    (first : reader.Ensures middle)
    (later : ∀ a, middle a → (next a).Ensures holds) :
    (reader >>= next).Ensures holds := by
  intro text b rest read
  rw [bind_apply, bind_eq_ok] at read
  obtain ⟨⟨a, left⟩, readFirst, readLater⟩ := read
  exact later a (first text a left readFirst) left b rest readLater

/-- What comes first does not matter if everything may follow it. -/
theorem ensures_bind
    (later : ∀ a, (next a).Ensures holds) :
    (reader >>= next).Ensures holds :=
  Ensures.bind (fun _ _ _ _ => trivial) fun a (_ : True) => later a

/-- A step that may be left out does not matter either. -/
theorem ensures_unless
    {condition : Prop}
    [Decidable condition]
    {step : Reader Unit}
    {next : Unit → Reader β}
    (later : ∀ done, (next done).Ensures holds) :
    Ensures
      (have onwards := next
      if condition then do
        let done ← step
        onwards done
      else onwards ())
      holds := by
  split
  · exact ensures_bind later
  · exact later ()

/-! ## Loops -/

section Loops

variable
  {σ : Type}
  {holds : σ → Prop}
  {body : σ → Reader σ}
  {start : σ}
  (keeps : ∀ state, holds state → (body state).Ensures holds)
  (begins : holds start)

include keeps begins

/-- A loop ensures what every round keeps, whatever tells that there is another round. -/
theorem ensures_loop
    {more : Bool → Reader Bool}
    {cause : Cause}
    {loop : Nat → Bool → σ → Reader σ}
    (exhausted : ∀ first state, loop 0 first state = failHere cause)
    (unfolded :
      ∀ fuel first state,
        loop (fuel + 1) first state = do
          if ← more first then loop fuel false (← body state) else return state)
    (fuel : Nat)
    (first : Bool) :
    (loop fuel first start).Ensures holds := by
  induction fuel generalizing first start with
  | zero =>
      rw [exhausted]
      exact ensures_failHere cause
  | succ fuel inductionHypothesis =>
      rw [unfolded]
      refine ensures_bind fun another => ?_
      split
      · exact (keeps start begins).bind fun _ kept => inductionHypothesis kept false
      · exact ensures_pure begins

/-- The items of an array are within what is left of the levels. -/
theorem ensures_items : (items body start).Ensures holds := by
  refine ensures_bind fun fuel => ?_
  have loop : (itemLoop body fuel true start).Ensures holds :=
    ensures_loop keeps begins (fun _ _ => rfl) (fun _ _ _ => rfl) fuel true
  exact loop.bind fun _ kept => ensures_bind fun _ => ensures_pure kept

/-- The values of the members of an object have what every value that is read has. -/
theorem ensures_members : (members body start).Ensures holds := by
  refine ensures_bind fun fuel => ?_
  have loop : (memberLoop body fuel true start).Ensures holds :=
    ensures_loop keeps begins (fun _ _ => rfl) (fun _ _ _ => rfl) fuel true
  exact loop.bind fun _ kept => ensures_bind fun _ => ensures_pure kept

end Loops

/-! ## Numbers -/

/-- A floating-point number is no whole one, so nothing is asked of it. -/
theorem part_floating (number : Binary64) : (Json.floating number).Part :=
  part_of_not_whole rfl nofun

/-- A floating number is a part, whatever its digits are. -/
theorem ensures_floating
    (negative : Bool)
    (significand : Nat)
    (exponent : Int) :
    (floating negative significand exponent).Ensures Part := by
  unfold floating
  split
  · exact ensures_pure (part_floating _)
  · exact ensures_failHere _

theorem ensures_exponentPart
    (negative : Bool)
    (significand : Nat)
    (exponent : Int) :
    (exponentPart negative significand exponent).Ensures Part := by
  unfold exponentPart
  refine ensures_bind fun _ => ensures_bind fun sign => ensures_unless fun _ => ?_
  refine ensures_bind fun c => ?_
  split
  · exact ensures_failHere _
  · split
    · exact ensures_failAtNext _
    · refine ensures_bind fun _ => ensures_bind fun fuel => ensures_bind fun size => ?_
      split
      · exact ensures_floating negative significand _
      · split
        · exact ensures_failHere _
        · exact ensures_bind fun _ => ensures_pure (part_floating _)

theorem ensures_exponentOrEnd
    (negative : Bool)
    (significand : Nat)
    (exponent : Int) :
    (exponentOrEnd negative significand exponent).Ensures Part := by
  refine ensures_bind fun c => ?_
  split
  · exact ensures_exponentPart negative significand exponent
  · exact ensures_exponentPart negative significand exponent
  · exact ensures_floating negative significand exponent

theorem ensures_fractionPart
    (negative : Bool)
    (significand : Nat)
    (exponent : Int) :
    (fractionPart negative significand exponent).Ensures Part := by
  unfold fractionPart
  refine ensures_bind fun _ => ensures_bind fun fuel => ensures_bind fun (read, digits, fits) => ?_
  dsimp only
  split
  · refine ensures_bind fun c => ?_
    split
    · exact ensures_failAtNext _
    · exact ensures_failHere _
  · exact ensures_unless fun _ => ensures_exponentOrEnd negative digits _

/-- A significand is read only as long as it fits into a word. -/
theorem ensures_significandDigits
    (fuel read : Nat)
    {significand : Nat}
    (fits : significand ≤ significandLimit) :
    (significandDigits fuel read significand).Ensures fun found =>
      found.2.1 ≤ significandLimit := by
  induction fuel generalizing read significand with
  | zero =>
      exact ensures_pure fits
  | succ fuel inductionHypothesis =>
      refine ensures_bind fun c => ?_
      split
      · exact ensures_pure fits
      · split
        · exact ensures_pure fits
        · rename_i stillFits
          exact ensures_bind fun _ => inductionHypothesis _ (Nat.not_lt.mp stillFits)

/-- A number whose digits fit into a word is a part, with or without a fraction. -/
theorem ensures_afterWhole
    (negative : Bool)
    {significand : Nat}
    (fits : significand ≤ significandLimit) :
    (afterWhole negative significand).Ensures Part := by
  refine ensures_bind fun c => ?_
  split
  · exact ensures_fractionPart negative significand 0
  · exact ensures_exponentPart negative significand 0
  · exact ensures_exponentPart negative significand 0
  · split
    · split
      · rename_i small
        rw [Bool.and_eq_true, decide_eq_true_eq, decide_eq_true_eq] at small
        exact ensures_pure (part_neg small.2)
      · split
        · exact ensures_pure (part_floating _)
        · exact ensures_failHere _
    · exact ensures_pure (part_count fits)

/-- A number with more digits is read as a floating one. -/
theorem ensures_afterLongWhole
    (negative : Bool)
    (significand : Nat) :
    (afterLongWhole negative significand).Ensures Part := by
  unfold afterLongWhole
  refine ensures_bind fun before => ensures_bind fun _ => ensures_bind fun left => ?_
  refine ensures_bind fun c => ?_
  split
  · exact ensures_fractionPart negative significand _
  · exact ensures_exponentPart negative significand _
  · exact ensures_exponentPart negative significand _
  · exact ensures_floating negative significand _

/-- Whole numbers that are read fit their words. -/
theorem ensures_unsignedNumber (negative : Bool) : (unsignedNumber negative).Ensures Part := by
  refine ensures_bind fun c => ?_
  split
  · exact ensures_failHere _
  · split
    · refine ensures_bind fun _ => ensures_bind fun d => ?_
      split
      · split
        · exact ensures_failAtNext _
        · exact ensures_afterWhole negative (Nat.zero_le _)
      · exact ensures_afterWhole negative (Nat.zero_le _)
    · split
      · refine ensures_bind fun fuel => ?_
        refine (ensures_significandDigits fuel 0 (Nat.zero_le _)).bind fun found small => ?_
        obtain ⟨read, significand, fits⟩ := found
        dsimp only
        split
        · exact ensures_afterWhole negative small
        · exact ensures_afterLongWhole negative significand
      · exact ensures_failAtNext _

/-! ## Values -/

/-- A bracket is opened only while there are levels left. -/
theorem ensures_openBracket (levels : Nat) : (openBracket levels).Ensures fun _ => 0 < levels := by
  unfold openBracket
  split
  · exact ensures_failAtNext _
  · rename_i some
    exact fun _ _ _ _ => Nat.pos_of_ne_zero some

/-- The kinds of arrays and objects are told by empty ones. -/
def KindOrPart (value : Json) : Prop := value = .array [] ∨ value = .object [] ∨ value.Part

/-- What is read without looking inside is a kind of value or a part. -/
theorem ensures_scalar : scalar.Ensures KindOrPart := by
  have number (negative : Bool) : (unsignedNumber negative).Ensures KindOrPart :=
    fun text value rest read => .inr (.inr (ensures_unsignedNumber negative text value rest read))
  have simple {value : Json} (flat : value.depth = 0) (notWhole : ∀ n, value ≠ .whole n) :
      (pure value : Reader Json).Ensures KindOrPart :=
    ensures_pure (.inr (.inr (part_of_not_whole flat notWhole)))
  refine ensures_bind fun c => ?_
  split
  · exact ensures_failHere _
  · split
    · exact ensures_bind fun _ => ensures_bind fun _ => simple rfl nofun
    · exact ensures_bind fun _ => ensures_bind fun _ => simple rfl nofun
    · exact ensures_bind fun _ => ensures_bind fun _ => simple rfl nofun
    · exact ensures_bind fun _ => ensures_bind fun _ => simple rfl nofun
    · exact ensures_bind fun _ => number true
    · exact ensures_pure (.inl rfl)
    · exact ensures_pure (.inr (.inl rfl))
    · split
      · exact number false
      · exact ensures_failAtNext _

/-- Every value that is read is within the levels that the parser was given, by induction on these.
-/
theorem ensures_any (levels : Nat) : (any levels).Ensures (Within levels) := by
  induction levels with
  | zero =>
      exact ensures_failAtNext _
  | succ levels inductionHypothesis =>
      refine ensures_scalar.bind fun value told => ?_
      rcases told with rfl | rfl | part
      · have gathers (found : List Json) (within : ∀ item ∈ found, item.Within levels) :
            Ensures (do return (← any levels) :: found) fun gathered =>
              ∀ item ∈ gathered, item.Within levels :=
          inductionHypothesis.bind fun item first =>
            ensures_pure (List.forall_mem_cons.mpr ⟨first, within⟩)
        refine (ensures_openBracket levels).bind fun _ deeper => ?_
        refine (ensures_items gathers (List.forall_mem_nil _)).bind fun found each => ?_
        exact ensures_pure (within_array deeper (by simpa using each))
      · have gathers
            (found : List (String × Json))
            (within : ∀ member ∈ found, member.2.Within levels) :
            Ensures
              (do
                let key ← string
                colon
                return (key, ← any levels) :: found)
              fun gathered => ∀ member ∈ gathered, member.2.Within levels :=
          ensures_bind fun key => ensures_bind fun _ => inductionHypothesis.bind fun value first =>
            ensures_pure (List.forall_mem_cons.mpr ⟨first, within⟩)
        refine (ensures_openBracket levels).bind fun _ deeper => ?_
        refine (ensures_members gathers (List.forall_mem_nil _)).bind fun found each => ?_
        exact ensures_pure (within_object deeper (by simpa using each))
      · have within : value.Within (levels + 1) := part.within (Nat.succ_pos levels)
        have flat := part.flat
        cases value with
        | array | object =>
            contradiction
        | _ =>
            exact ensures_pure within

end Reader

/-- Whatever a text spells is within the bounds of the reader. -/
theorem within_of_ofText
    {text : List Char}
    (read : ofText text = .ok value) :
    value.Within Reader.levelLimit := by
  obtain ⟨⟨found, rest⟩, readAll, same⟩ := Reader.bind_eq_ok.mp read
  obtain rfl : found = value := Except.ok.inj same
  refine Reader.Ensures.bind (Reader.ensures_any Reader.levelLimit) ?_ text found rest readAll
  intro value within
  refine Reader.ensures_bind fun c => ?_
  split
  · exact Reader.ensures_pure within
  · exact Reader.ensures_failAtNext _

end Json

end VerifyPipeline
