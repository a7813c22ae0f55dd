import Mathlib.Data.List.Forall2
import VerifyPipeline.Json.Decoder.Basic
import VerifyPipeline.Proofs.Json.Tokens

namespace VerifyPipeline.Json

/-!
# Typed decoders on texts that spell values

A text may spell a value in many ways: with other white space, with escapes where none are needed.
However it is spelled, a typed decoder reads from the text what the value stands for, as far as the
general reader does.
-/

namespace Reader

/-! ## Gathering items -/

/-- Put in front of what was found what a reader reads. -/
def prepend (reader : Reader α) (found : List α) : Reader (List α) := do
  return (← reader) :: found

theorem prepend_eq_ok
    {reader : Reader α}
    {before after : List α}
    {text rest : List Char} :
    reader.prepend before text = .ok (after, rest) ↔
      ∃ a, reader text = .ok (a, rest) ∧ after = a :: before := by
  simp only [prepend, bind_apply, bind_eq_ok, pure_apply, Except.ok.injEq, Prod.mk.injEq,
    Prod.exists]
  constructor
  · rintro ⟨a, _, read, rfl, rfl⟩
    exact ⟨a, read, rfl⟩
  · rintro ⟨a, read, rfl⟩
    exact ⟨a, rest, read, rfl, rfl⟩

/-- Wherever a reader reads something, another one reads what that stands for. -/
def Renders (general : Reader α) (typed : Reader β) (a : α) (b : β) : Prop :=
  ∀ text rest, general text = .ok (a, rest) → typed text = .ok (b, rest)

variable
  {general : Reader α}
  {typed : Reader β}

/-- Items are read one by one as what they stand for.  What was gathered before them stands for
something, too, since it is a part of what is gathered in the end. -/
theorem itemLoop_of_renders
    {gathered : List α}
    {found : List β}
    (renders : List.Forall₂ (general.Renders typed) gathered found)
    {fuel : Nat}
    {first : Bool}
    {start : List α}
    {text rest : List Char}
    (read : itemLoop general.prepend fuel first start text = .ok (gathered, rest)) :
    ∃ begun,
      List.Forall₂ (general.Renders typed) start begun ∧
        itemLoop typed.prepend fuel first begun text = .ok (found, rest) := by
  induction fuel generalizing first start text with
  | zero =>
      contradiction
  | succ fuel inductionHypothesis =>
      simp only [itemLoop, bind_apply, bind_eq_ok] at read
      obtain ⟨⟨another, ahead⟩, looked, read⟩ := read
      cases another with
      | false =>
          obtain ⟨rfl, rfl⟩ : start = gathered ∧ ahead = rest := by
            simpa using read
          exact ⟨found, renders, itemLoop_of_closing looked⟩
      | true =>
          simp only [if_true, bind_apply, bind_eq_ok] at read
          obtain ⟨⟨more, left⟩, readItem, readOthers⟩ := read
          obtain ⟨a, readOne, rfl⟩ := prepend_eq_ok.mp readItem
          obtain ⟨begun, same, readTyped⟩ := inductionHypothesis readOthers
          cases same with
          | @cons _ b _ others item before =>
              have typedItem : typed.prepend others ahead = .ok (b :: others, left) :=
                prepend_eq_ok.mpr ⟨b, item ahead left readOne, rfl⟩
              exact ⟨others, before, (itemLoop_of_item looked typedItem).trans readTyped⟩

/-- Items are read by a typed decoder if the general one renders them. -/
theorem items_of_renders
    {gathered : List α}
    {found : List β}
    (renders : List.Forall₂ (general.Renders typed) gathered found)
    {text rest : List Char}
    (read : items general.prepend [] text = .ok (gathered, rest)) :
    items typed.prepend [] text = .ok (found, rest) := by
  simp only [items, bind_apply, bind_eq_ok, rounds_apply, ok_bind] at read ⊢
  obtain ⟨⟨_, last⟩, readLoop, closed⟩ := read
  obtain ⟨rfl, rfl⟩ : _ = gathered ∧ last.tail = rest := by
    simpa using closed
  obtain ⟨begun, none, typedLoop⟩ := itemLoop_of_renders renders readLoop
  obtain rfl := List.forall₂_nil_left_iff.mp none
  exact ⟨(found, last), typedLoop, ((), last.tail), rfl, rfl⟩

/-! ## What the general reader reads -/

/-- A string is read as what is neither an array nor an object. -/
theorem scalar_of_any_string
    {levels : Nat}
    {name : String}
    {text rest : List Char}
    (read : any levels text = .ok (.string name, rest)) :
    scalar text = .ok (.string name, rest) := by
  cases levels with
  | zero =>
      contradiction
  | succ levels =>
      simp only [any, bind_apply, bind_eq_ok] at read
      obtain ⟨⟨value, left⟩, kind, read⟩ := read
      cases value with
      | array | object =>
          simp only [bind_apply, bind_eq_ok] at read
          obtain ⟨_, _, _, _, ⟨⟩⟩ := read
      | string =>
          cases read
          exact kind
      | _ =>
          cases read

/-- An array is read from behind its bracket on. -/
theorem items_of_any_array
    {levels : Nat}
    {found : List Json}
    {text rest : List Char}
    (read : any levels text = .ok (.array found, rest)) :
    ∃ inner deeper ahead left,
      levels = deeper + 1 ∧
        scalar text = .ok (.array inner, ahead) ∧
        openBracket deeper ahead = .ok ((), left) ∧
        items (any deeper).prepend [] left = .ok (found.reverse, rest) := by
  cases levels with
  | zero =>
      contradiction
  | succ deeper =>
      simp only [any, bind_apply, bind_eq_ok] at read
      obtain ⟨⟨value, ahead⟩, kind, read⟩ := read
      cases value with
      | array inner =>
          simp only [bind_apply, bind_eq_ok] at read
          obtain ⟨⟨_, left⟩, opened, ⟨gathered, last⟩, readItems, same⟩ := read
          cases same
          rw [List.reverse_reverse]
          exact ⟨inner, deeper, ahead, left, rfl, kind, opened, readItems⟩
      | object =>
          simp only [bind_apply, bind_eq_ok] at read
          obtain ⟨_, _, _, _, ⟨⟩⟩ := read
      | _ =>
          cases read

end Reader

namespace Decoder

/-! ## Decoders -/

/-- However a text spells a value, a decoder reads what the value stands for. -/
def Recognizes (decoder : Decoder α) (value : Json) (a : α) : Prop :=
  ∀ levels, (Reader.any levels).Renders (decoder.text levels) value a

theorem recognizes_string (name : String) : Decoder.string.Recognizes (.string name) name := by
  intro levels text rest read
  have scalar := Reader.scalar_of_any_string read
  simp [string, stringNamed, simple, Reader.judged, scalar, Reader.ofVerdict]

/-- An array is recognized if its items are. -/
theorem recognizes_array
    {decoder : Decoder α}
    {items : List Json}
    {found : List α}
    (recognizes : List.Forall₂ decoder.Recognizes items found) :
    (Decoder.list decoder).Recognizes (.array items) found := by
  intro levels text rest read
  obtain ⟨inner, deeper, ahead, left, rfl, kind, opened, readItems⟩ :=
    Reader.items_of_any_array read
  have inside : List.Forall₂ ((Reader.any deeper).Renders (decoder.text deeper)) items found :=
    recognizes.imp fun _ _ recognized => recognized deeper
  have readTyped := Reader.items_of_renders (List.rel_reverse inside) readItems
  have readBehind :
      Reader.inside (deeper + 1)
          (fun levels => do
            let found ← Reader.items (decoder.text levels).prepend []
            return found.reverse)
          ahead =
        .ok (found, rest) := by
    simp [-bind_pure_comp, Reader.inside, opened, readTyped]
  simp only [Decoder.list, Reader.bind_apply, kind, Reader.ok_bind]
  exact readBehind

/-- What is done to the result of a decoder is done to what is recognized. -/
theorem Recognizes.map
    {decoder : Decoder α}
    {value : Json}
    {a : α}
    (recognizes : decoder.Recognizes value a)
    (f : α → β) :
    (decoder.map f).Recognizes value (f a) := by
  intro levels text rest read
  simp [Decoder.map, recognizes levels text rest read]

/-- A whole text that spells a value is decoded as what the value stands for. -/
theorem Recognizes.ofText
    {decoder : Decoder α}
    {value : Json}
    {a : α}
    (recognizes : decoder.Recognizes value a)
    {text : List Char}
    (spelled : Json.ofText text = .ok value) :
    decoder.ofText text = .ok a := by
  obtain ⟨⟨found, rest⟩, readAll, same⟩ := Reader.bind_eq_ok.mp spelled
  obtain rfl : found = value := Except.ok.inj same
  simp only [Reader.bind_apply, Reader.bind_eq_ok] at readAll
  obtain ⟨⟨_, left⟩, readValue, ⟨next?, ahead⟩, looked, ended⟩ := readAll
  cases next? with
  | some _ =>
      contradiction
  | none =>
      obtain ⟨rfl, rfl⟩ : _ = found ∧ ahead = rest := by
        simpa using ended
      have typed := recognizes Reader.levelLimit text left readValue
      simp only [Decoder.ofText, Reader.wholeText, Reader.bind_apply, typed, looked,
        Reader.ok_bind, Reader.pure_apply]
      rfl

end Decoder

end VerifyPipeline.Json
