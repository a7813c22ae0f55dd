import VerifyPipeline.Binary64.Basic

/-!
# The similarity of words

Two words are the more similar, the more of their characters have a partner: an equal character at
about the same place of the other word.  Partners that come in a different order count for less.
The measure is a mean of three shares in floating-point numbers, from zero for words without any
partners to one for equal words.
-/

namespace VerifyPipeline.Text

/-- How far apart partners may be in words of given lengths. -/
def partnerRange (m n : Nat) : Nat := max m n / 2 - 1

/-- Find partners for the characters of a word, the first of which has the place `index`, among
characters with their places.  The result is the characters that have a partner, and what is left
without one. -/
def findPartners
    (range : Nat) :
    Nat → List Char → List (Char × Nat) → List Char × List (Char × Nat)
  | _, [], free => ([], free)
  | index, c :: rest, free =>
    let isPartner := fun (d, place) => d = c && index ≤ place + range && place ≤ index + range
    match free.find? isPartner with
    | none => findPartners range (index + 1) rest free
    | some _ =>
      let (others, left) := findPartners range (index + 1) rest (free.eraseP isPartner)
      (c :: others, left)

/-- The number of places at which two lists differ. -/
def differences (a b : List Char) : Nat := (a.zip b).countP fun (c, d) => c ≠ d

/-- The mean of three shares, each given as a numerator and a denominator. -/
def meanShare? (first second third : Nat × Nat) : Option Magnitude := do
  let one ← Magnitude.ofRatio? first.1 first.2
  let two ← Magnitude.ofRatio? second.1 second.2
  let three ← Magnitude.ofRatio? third.1 third.2
  let sum ← (← one.add? two).add? three
  sum.div? (← Magnitude.ofNat? 3)

/-- The similarity of two words. -/
def similarity (a b : List Char) : Magnitude :=
  let places := b.zipIdx
  let (paired, left) := findPartners (partnerRange a.length b.length) 0 a places
  let partners := (places.filter fun place => !left.contains place).map Prod.fst
  let swaps := differences paired partners / 2
  let count := paired.length
  if count = 0 then .zero
  else
    (meanShare? (count, a.length) (count, b.length) (count - swaps, count)).getD .zero

/-- The similarity from which on, itself excluded, a word is suggested in place of another. -/
def suggestionLimit : Magnitude := (Magnitude.ofRatio? 7 10).getD .zero

/-- The word to suggest in place of another one: the most similar of some words, if it is similar
enough; the last of equally similar ones. -/
def suggestion? (word : String) (candidates : List String) : Option String :=
  let similar := candidates.filterMap fun candidate =>
    let measure := similarity word.toList candidate.toList
    if suggestionLimit.isBelow measure then some (candidate, measure) else none
  let better := fun best? next => match best? with
    | some best => if next.2.isBelow best.2 then some best else some next
    | none => some next
  (similar.foldl better none).map Prod.fst

end VerifyPipeline.Text
